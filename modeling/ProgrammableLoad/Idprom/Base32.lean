/-
# `Idprom.Base32` — the base32 coder

`Util::Base32` turns bytes into characters of five bits and back.  Both
directions keep the bits they have taken from the input and not yet passed on
in the low end of a 32-bit buffer, `pending`, and both stop without a word
when the output is full.

So encoding into a buffer of `n` characters yields the first `n` characters of
the encoding, `encodeChars_eq`, and decoding gives the bytes back if it was all of
them, `decode_base32`.
-/
import ProgrammableLoad.Cpp.Fault
import ProgrammableLoad.Theory.Digits

namespace Base32

open Cpp Digits

/-! ## Encoding -/

def kChars : List Byte := ascii "ABCDEFGHIJKLMNOPQRSTUVWXYZ234567"

/-- `kChars[index]` -/
def symbol (index : BitVec 5) : Byte := kChars.getD index.toNat 0

/-- Before a character is put out: one more byte if there are not enough bits,
or zeros if there is no more byte. -/
def refill (buffer : BitVec 32) (input : List Byte) (bitsLeft : Nat) :
    BitVec 32 × List Byte × Nat :=
  if bitsLeft < 5 then
    match input with
    | byte :: input => (buffer <<< 8 ||| byte.setWidth 32, input, bitsLeft + 8)
    | [] => (buffer <<< (5 - bitsLeft), [], bitsLeft + (5 - bitsLeft))
  else
    (buffer, input, bitsLeft)

/-- `0x1F & (buffer >> (bitsLeft - 5))` -/
def index (buffer : BitVec 32) (bitsLeft : Nat) : BitVec 5 :=
  (0x1f &&& (buffer >>> (bitsLeft - 5))).setWidth 5

/-- The loop, with the room that is left in the output and the input from
`next` on. -/
def encodeLoop : (room : Nat) → BitVec 32 → List Byte → Nat → List Byte
  | 0, _, _, _ => []
  | room + 1, buffer, input, bitsLeft =>
      if 0 < bitsLeft ∨ input ≠ [] then
        let (buffer, input, bitsLeft) := refill buffer input bitsLeft
        symbol (index buffer bitsLeft) :: encodeLoop room buffer input (bitsLeft - 5)
      else
        []

/-- The characters that are put out. -/
def encodeChars (input : List Byte) (bufSize : Nat) : List Byte :=
  match input with
  | [] => []
  | byte :: input => encodeLoop bufSize (byte.setWidth 32) input 8

/-- The count of characters with the contents of the output, which is
terminated if there is room; nothing for an input that is too long. -/
def encode (input output : List Byte) : Option (Nat × List Byte) :=
  if 2 ^ 28 < input.length then
    none
  else
    let chars := encodeChars input output.length
    some (chars.length, chars ++
      if chars.length < output.length then 0 :: output.drop (chars.length + 1) else [])

/-! ## Decoding -/

def whitespace : List Byte := ascii " \t\r\n-"

/-- The commonly mistyped characters. -/
def mistyped (ch : Byte) : Byte :=
  if ch = 0x30 then 0x4f
  else if ch = 0x31 then 0x4c
  else if ch = 0x38 then 0x42
  else ch

/-- Look up one base32 digit. -/
def lookupDigit (ch : Byte) : Option Byte :=
  if (0x41 ≤ ch ∧ ch ≤ 0x5a) ∨ (0x61 ≤ ch ∧ ch ≤ 0x7a) then
    some ((ch &&& 0x1f) - 1)
  else if 0x32 ≤ ch ∧ ch ≤ 0x37 then
    some (ch - (0x32 - 26))
  else
    none

/-- The loop over the characters, the end of the list standing for their
terminator, with the room that is left in the output. -/
def decodeLoop : List Byte → (room : Nat) → BitVec 32 → Nat → Option (List Byte)
  | [], _, _, _ => some []
  | ch :: input, room, buffer, bitsLeft =>
      if room = 0 ∨ ch = 0 then
        some []
      else if ch ∈ whitespace then
        decodeLoop input room buffer bitsLeft
      else do
        let digit ← lookupDigit (mistyped ch)
        let buffer := buffer <<< 5 ||| digit.setWidth 32
        if 8 ≤ bitsLeft + 5 then
          let bytes ← decodeLoop input (room - 1) buffer (bitsLeft + 5 - 8)
          return (buffer >>> (bitsLeft + 5 - 8)).setWidth 8 :: bytes
        else
          decodeLoop input room buffer (bitsLeft + 5)

/-- The bytes that are put out, or nothing for an invalid character. -/
def decode (input : List Byte) (bufSize : Nat) : Option (List Byte) :=
  decodeLoop input bufSize 0 0

/-! ## What is meant -/

/-- The unpadded base32 encoding. -/
def base32 (s : List Byte) : List Byte := (digits 5 (s.flatMap bits)).map symbol

theorem length_flatMap_bits (s : List Byte) : (s.flatMap bits).length = 8 * s.length := by
  induction s with
  | nil => rfl
  | cons byte s ih =>
      rw [List.flatMap_cons, List.length_append, length_bits, ih, List.length_cons]
      omega

/-- Eight bits a byte in, five bits a character out. -/
@[simp] theorem length_base32 (s : List Byte) : (base32 s).length = (8 * s.length + 4) / 5 := by
  rw [base32, List.length_map, length_digits, length_flatMap_bits]

/-! ## The bits in the buffer -/

/-- The low `n` bits of the buffer. -/
def pending (buffer : BitVec 32) (n : Nat) : List Bool := bits (buffer.setWidth n)

@[simp] theorem length_pending (buffer : BitVec 32) (n : Nat) : (pending buffer n).length = n :=
  length_bits _

theorem pending_add (buffer : BitVec 32) (a b : Nat) :
    pending buffer (a + b) = pending (buffer >>> b) a ++ pending buffer b :=
  bits_setWidth_add buffer a b

/-- A word that is shifted in. -/
theorem pending_shiftLeft_or {k : Nat} (buffer : BitVec 32) (x : BitVec k) {n : Nat}
    (h : n + k ≤ 32) :
    pending (buffer <<< k ||| x.setWidth 32) (n + k) = pending buffer n ++ bits x := by
  rw [pending_add]
  have hhigh : ((buffer <<< k ||| x.setWidth 32) >>> k).setWidth n = buffer.setWidth n := by
    apply BitVec.eq_of_getLsbD_eq
    intro i hi
    have hx : x.getLsbD (k + i) = false := BitVec.getLsbD_of_ge x _ (by omega)
    simp only [BitVec.getLsbD_setWidth, BitVec.getLsbD_ushiftRight, BitVec.getLsbD_or,
      BitVec.getLsbD_shiftLeft, hx, hi, show k + i < 32 by omega, Bool.and_false, Bool.or_false,
      decide_true, Bool.true_and, Nat.add_sub_cancel_left, show ¬ k + i < k by omega, decide_false,
      Bool.not_false]
  have hlow : (buffer <<< k ||| x.setWidth 32).setWidth k = x := by
    apply BitVec.eq_of_getLsbD_eq
    intro i hi
    simp [hi, show i < 32 by omega]
  rw [pending, pending, hhigh, hlow, pending]

theorem pending_shiftLeft (buffer : BitVec 32) {n k : Nat} (h : n + k ≤ 32) :
    pending (buffer <<< k) (n + k) = pending buffer n ++ List.replicate k false := by
  have hzero : bits (0 : BitVec k) = List.replicate k false := by
    refine List.ext_getElem (by simp) ?_
    intro i _ _
    simp [bits]
  rw [← hzero, ← pending_shiftLeft_or buffer 0 h]
  simp

/-! ## Encoding puts out the encoding -/

section Encode

variable {buffer : BitVec 32} {input : List Byte} {n : Nat}

/-- The digit that is put out next. -/
theorem index_eq (buffer : BitVec 32) (m : Nat) (l : List Bool) :
    index buffer (m + 5) = word 5 (pending buffer (m + 5) ++ l) := by
  have hmask : ∀ j : Fin 5, (0x1f : BitVec 32).getLsbD j = true := by decide
  rw [Nat.add_comm m 5, pending_add, List.append_assoc, word_append (length_pending _ _), pending,
    word_bits, index]
  apply BitVec.eq_of_getLsbD_eq
  intro i hi
  rw [BitVec.getLsbD_setWidth, BitVec.getLsbD_and, hmask ⟨i, hi⟩, Bool.true_and,
    BitVec.getLsbD_setWidth, Nat.add_sub_cancel_left]

theorem digits_pending (buffer : BitVec 32) (m : Nat) (l : List Bool) :
    digits 5 (pending buffer (m + 5) ++ l)
      = index buffer (m + 5) :: digits 5 (pending buffer m ++ l) := by
  have hsplit : pending buffer (m + 5) = pending (buffer >>> m) 5 ++ pending buffer m := by
    rw [Nat.add_comm, pending_add]
  rw [index_eq buffer m l, hsplit, List.append_assoc, digits_append (by decide) (length_pending _ _),
    word_append (length_pending _ _)]

/-- There is a whole digit in the buffer after it was refilled, and no digit is
changed by it. -/
theorem refill_eq (buffer : BitVec 32) (hn : n ≤ 8) (hmore : 0 < n ∨ input ≠ []) :
    ∃ buffer' input' m, refill buffer input n = (buffer', input', m + 5) ∧ m ≤ 8 ∧
      digits 5 (pending buffer n ++ input.flatMap bits)
        = digits 5 (pending buffer' (m + 5) ++ input'.flatMap bits) := by
  unfold refill
  by_cases hfew : n < 5
  · rw [if_pos hfew]
    cases input with
    | cons byte input =>
        refine ⟨_, _, n + 3, rfl, by omega, ?_⟩
        rw [show n + 3 + 5 = n + 8 from rfl, pending_shiftLeft_or buffer byte (by omega),
          List.append_assoc, List.flatMap_cons]
    | nil =>
        have hpos : 0 < n := hmore.resolve_right fun h => h rfl
        have hne : pending buffer n ≠ [] := by
          rw [← List.length_pos_iff, length_pending]
          exact hpos
        have hfull : n + (5 - n) = 0 + 5 := by omega
        refine ⟨buffer <<< (5 - n), [], 0, by simp only [hfull], by omega, ?_⟩
        rw [← hfull, pending_shiftLeft buffer (by omega), List.flatMap_nil, List.append_nil,
          List.append_nil, digits_append_zeros hne (by rw [length_pending]; omega)]
  · rw [if_neg hfew]
    have hfull : n = n - 5 + 5 := by omega
    exact ⟨buffer, input, n - 5, by rw [← hfull], by omega, by rw [← hfull]⟩

/-- The loop puts out the digits of the bits that are left, as far as there is
room. -/
theorem encodeLoop_eq (room : Nat) (hn : n ≤ 8) :
    encodeLoop room buffer input n
      = ((digits 5 (pending buffer n ++ input.flatMap bits)).map symbol).take room := by
  induction room generalizing buffer input n with
  | zero => rfl
  | succ room ih =>
      rw [encodeLoop]
      by_cases hmore : 0 < n ∨ input ≠ []
      · obtain ⟨buffer', input', m, hrefill, hm, hdigits⟩ := refill_eq buffer hn hmore
        rw [if_pos hmore, hrefill, hdigits, digits_pending, List.map_cons, List.take_succ_cons]
        show _ :: encodeLoop room buffer' input' (m + 5 - 5) = _
        rw [Nat.add_sub_cancel, ih hm]
      · obtain ⟨rfl, rfl⟩ : n = 0 ∧ input = [] := by
          constructor
          · exact Nat.eq_zero_of_not_pos fun h => hmore (.inl h)
          · exact Decidable.not_not.mp fun h => hmore (.inr h)
        have hnil : pending buffer 0 ++ ([] : List Byte).flatMap bits = [] := rfl
        rw [if_neg hmore, hnil, digits_nil (by decide)]
        rfl

/-- The first characters of the encoding, as many as there is room for. -/
theorem encodeChars_eq (s : List Byte) (bufSize : Nat) :
    encodeChars s bufSize = (base32 s).take bufSize := by
  cases s with
  | nil => simp [encodeChars, base32, digits_nil]
  | cons byte s =>
      have hbyte : pending (byte.setWidth 32) 8 = bits byte := by
        rw [pending, BitVec.setWidth_setWidth_of_le _ (by decide), BitVec.setWidth_eq]
      rw [encodeChars, encodeLoop_eq bufSize (by decide), hbyte, base32, List.flatMap_cons]

end Encode

/-! ## Decoding gives the bytes back -/

section Decode

variable {n : Nat}

theorem symbol_ne_zero : ∀ q : BitVec 5, symbol q ≠ 0 := by decide

theorem symbol_notMem_whitespace : ∀ q : BitVec 5, symbol q ∉ whitespace := by decide

theorem lookupDigit_symbol :
    ∀ q : BitVec 5, lookupDigit (mistyped (symbol q)) = some (q.setWidth 8) := by decide

theorem setWidth_digit :
    ∀ q : BitVec 5, (q.setWidth 8).setWidth 32 = q.setWidth 32 := by decide

theorem decodeLoop_zero (input : List Byte) (buffer : BitVec 32) :
    decodeLoop input 0 buffer n = some [] := by
  cases input with
  | nil => rfl
  | cons ch input => exact if_pos (.inl rfl)

theorem not_stopped {ch : Byte} (hzero : ch ≠ 0) (room : Nat) : ¬ (room + 1 = 0 ∨ ch = 0) := by
  rintro (h | h)
  · cases h
  · exact hzero h

/-- What is in between is skipped. -/
theorem decodeLoop_space {ch : Byte} (hzero : ch ≠ 0) (hspace : ch ∈ whitespace)
    (input : List Byte) (room : Nat) (buffer : BitVec 32) :
    decodeLoop (ch :: input) room buffer n = decodeLoop input room buffer n := by
  cases room with
  | zero => rw [decodeLoop_zero, decodeLoop_zero]
  | succ room => rw [decodeLoop, if_neg (not_stopped hzero room), if_pos hspace]

/-- Any other character that is no digit is invalid. -/
theorem decodeLoop_invalid {ch : Byte} (hzero : ch ≠ 0) (hspace : ch ∉ whitespace)
    (hdigit : lookupDigit (mistyped ch) = none) (input : List Byte) (room : Nat)
    (buffer : BitVec 32) : decodeLoop (ch :: input) (room + 1) buffer n = none := by
  rw [decodeLoop, if_neg (not_stopped hzero room), if_neg hspace, hdigit]
  rfl

/-- The turn of the loop for a digit. -/
theorem decodeLoop_digit {ch digit : Byte} (hzero : ch ≠ 0) (hspace : ch ∉ whitespace)
    (hdigit : lookupDigit (mistyped ch) = some digit) (input : List Byte) (room : Nat)
    (buffer : BitVec 32) :
    decodeLoop (ch :: input) (room + 1) buffer n =
      let buffer := buffer <<< 5 ||| digit.setWidth 32
      if 8 ≤ n + 5 then
        (decodeLoop input room buffer (n + 5 - 8)).map fun bytes =>
          (buffer >>> (n + 5 - 8)).setWidth 8 :: bytes
      else
        decodeLoop input (room + 1) buffer (n + 5) := by
  rw [decodeLoop, if_neg (not_stopped hzero room), if_neg hspace, hdigit]
  simp only [Option.bind_eq_bind, Option.bind_some, Nat.add_sub_cancel]
  by_cases hbyte : 8 ≤ n + 5
  · rw [if_pos hbyte, if_pos hbyte, Option.map_eq_bind]
    rfl
  · rw [if_neg hbyte, if_neg hbyte]

theorem decodeLoop_symbol (q : BitVec 5) (input : List Byte) (room : Nat) (buffer : BitVec 32) :
    decodeLoop (symbol q :: input) (room + 1) buffer n =
      let buffer := buffer <<< 5 ||| q.setWidth 32
      if 8 ≤ n + 5 then
        (decodeLoop input room buffer (n + 5 - 8)).map fun bytes =>
          (buffer >>> (n + 5 - 8)).setWidth 8 :: bytes
      else
        decodeLoop input (room + 1) buffer (n + 5) := by
  rw [decodeLoop_digit (symbol_ne_zero q) (symbol_notMem_whitespace q) (lookupDigit_symbol q),
    setWidth_digit]

theorem words_pending (buffer : BitVec 32) (m : Nat) (l : List Bool) :
    words 8 (pending buffer (m + 8) ++ l)
      = (buffer >>> m).setWidth 8 :: words 8 (pending buffer m ++ l) := by
  rw [Nat.add_comm, pending_add, List.append_assoc, words_append (by decide) (length_pending _ _),
    pending, word_bits]

/-- The loop puts out the bytes in the bits that are left, as far as there is
room. -/
theorem decodeLoop_eq (qs : List (BitVec 5)) (room : Nat) (buffer : BitVec 32) (hn : n < 8) :
    decodeLoop (qs.map symbol) room buffer n
      = some ((words 8 (pending buffer n ++ qs.flatMap bits)).take room) := by
  induction qs generalizing room buffer n with
  | nil =>
      rw [List.flatMap_nil, List.append_nil, words_of_lt (by rwa [length_pending]), List.take_nil]
      rfl
  | cons q qs ih =>
      cases room with
      | zero => rfl
      | succ room =>
          have hpending := pending_shiftLeft_or buffer q (show n + 5 ≤ 32 by omega)
          rw [List.map_cons, decodeLoop_symbol, List.flatMap_cons, ← List.append_assoc, ← hpending]
          by_cases hbyte : 8 ≤ n + 5
          · obtain ⟨m, hm⟩ : ∃ m, n + 5 = m + 8 := ⟨n - 3, by omega⟩
            simp only [hm, Nat.add_sub_cancel, if_pos (Nat.le_add_left 8 m)]
            rw [words_pending, ih room _ (by omega), List.take_succ_cons, Option.map_some]
          · simp only [if_neg hbyte]
            rw [ih (room + 1) _ (by omega)]

theorem decode_base32 (s : List Byte) (bufSize : Nat) :
    decode (base32 s) bufSize = some (s.take bufSize) := by
  have hnil : pending 0 0 = [] := rfl
  rw [decode, base32, decodeLoop_eq _ _ _ (by decide), hnil, List.nil_append,
    words_digits (by decide) (by decide)]

end Decode

end Base32
