/-
# `Idprom.Base32Decoder` — the base32 decoder in memory, and retyping

The decoder as it runs, over a text that ends with a zero and whose end is
nowhere written down: a read behind the zero is a fault.  It refines the
decoder of `Idprom.Base32`, `decode_settles`.

A human who copies the encoding may put spaces and hyphens into it, change the
case of the letters, and take some letters for digits, `Retyped`.  The decoder
gives the same bytes for it, `decode_retyped_settles`.
-/
import ProgrammableLoad.Idprom.Base32Encoder

namespace Base32.Buffers

open Cpp Program

/-! ## The decoder -/

/-- Why the loop is left. -/
inductive Exit where
  | fault (e : Fault)
  | returns (value : Int) (output : List Byte)

/-- The variables of the loop, with the output. -/
structure Decoder where
  ptr : Nat
  buffer : BitVec 32
  bitsLeft : Size
  count : Size
  output : List Byte

def orFault {α : Type} : Except Fault α → Except Exit α
  | .ok a => .ok a
  | .error e => .error (.fault e)

namespace Decoder

/-- `count < bufSize && *ptr` -/
def goesOn (input : List Byte) (bufSize : Size) (c : Decoder) : Except Exit Bool :=
  if c.count < bufSize then do
    let ch ← orFault (load input c.ptr)
    return ch ≠ 0
  else
    return false

/-- The digit goes into the buffer, and a byte out of it if there is one. -/
def putDigit (digit : Byte) (c : Decoder) : Except Fault Decoder :=
  let buffer := c.buffer <<< 5 ||| digit.setWidth 32
  let bitsLeft := c.bitsLeft + 5
  if 8 ≤ bitsLeft then do
    let shifted ← shr buffer (bitsLeft - 8)
    let output ← store c.output c.count.toNat (shifted.setWidth 8)
    return ⟨c.ptr + 1, buffer, bitsLeft - 8, c.count + 1, output⟩
  else
    return ⟨c.ptr + 1, buffer, bitsLeft, c.count, c.output⟩

def turn (input : List Byte) (c : Decoder) : Except Exit Decoder := do
  let ch ← orFault (load input c.ptr)
  if ch ∈ whitespace then
    return { c with ptr := c.ptr + 1 }
  else
    match lookupDigit (mistyped ch) with
    | none => throw (.returns (-1) c.output)
    | some digit => orFault (c.putDigit digit)

end Decoder

/-- What follows the loop of the decoder. -/
def finishDecoding (bufSize : Size) :
    Except Exit (Option Decoder) → Except Fault (Option (Int × List Byte))
  | .error (.fault e) => .error e
  | .error (.returns value output) => .ok (some (value, output))
  | .ok none => .ok none
  | .ok (some c) => do
      let output ← terminate bufSize c.count c.output
      return some (c.count.toInt, output)

/-- `Util::Base32::Decode` of the text at `input`. -/
def decode (turns : Nat) (input outBuf : List Byte) : Except Fault (Option (Int × List Byte)) :=
  finishDecoding (size outBuf) (whileLoop (Decoder.goesOn input (size outBuf))
    (Decoder.turn input) turns ⟨0, 0, 0, 0, outBuf⟩)

/-! ## One turn of the decoder -/

section Decode

variable {text outBuf written : List Byte} {result : Option (List Byte)} {c : Decoder}

/-- Between two turns: what was put out is in front of what was there before,
and the rest of the text decides what becomes of the bits that are left. -/
structure Decodes (text outBuf : List Byte) (result : Option (List Byte)) (c : Decoder)
    (written : List Byte) : Prop where
  ptr_le : c.ptr ≤ text.length
  bitsLeft_lt : c.bitsLeft.toNat < 8
  count_eq : c.count.toNat = written.length
  length_le : written.length ≤ outBuf.length
  output_eq : c.output = written ++ outBuf.drop written.length
  result_eq : result = (decodeLoop (text.drop c.ptr) (outBuf.length - written.length) c.buffer
    c.bitsLeft.toNat).map (written ++ ·)

theorem goesOn_of_full (hout : outBuf.length < 2 ^ 32) {input : List Byte}
    (hfull : ¬ c.count.toNat < outBuf.length) : c.goesOn input (size outBuf) = .ok false :=
  if_neg fun h => hfull ((lt_size_iff hout).mp h)

theorem goesOn_of_load (hout : outBuf.length < 2 ^ 32) {input : List Byte} {ch : Byte}
    (hroom : c.count.toNat < outBuf.length) (hload : input[c.ptr]? = some ch) :
    c.goesOn input (size outBuf) = .ok (decide (ch ≠ 0)) := by
  rw [Decoder.goesOn, if_pos ((lt_size_iff hout).mpr hroom), load_eq_ok hload]
  rfl

/-- The byte that a digit completes. -/
def Decoder.byte (digit : Byte) (c : Decoder) : Byte :=
  ((c.buffer <<< 5 ||| digit.setWidth 32) >>> (c.bitsLeft.toNat + 5 - 8)).setWidth 8

theorem toNat_bitsLeft_add (hbits : c.bitsLeft.toNat < 8) :
    (c.bitsLeft + 5).toNat = c.bitsLeft.toNat + 5 := by
  bv_omega

theorem le_bitsLeft_iff (hbits : c.bitsLeft.toNat < 8) :
    8 ≤ c.bitsLeft + 5 ↔ 8 ≤ c.bitsLeft.toNat + 5 := by
  rw [BitVec.le_def, toNat_bitsLeft_add hbits]
  exact Iff.rfl

/-- A digit that completes no byte. -/
theorem Decodes.putBits {digit : Byte} (h : Decodes text outBuf result c written)
    (hptr : c.ptr < text.length) (hfew : ¬ 8 ≤ c.bitsLeft.toNat + 5)
    (hresult : result = (decodeLoop (text.drop (c.ptr + 1)) (outBuf.length - written.length)
      (c.buffer <<< 5 ||| digit.setWidth 32) (c.bitsLeft.toNat + 5)).map (written ++ ·)) :
    ∃ d, c.putDigit digit = .ok d ∧ d.ptr = c.ptr + 1 ∧ Decodes text outBuf result d written := by
  have hadd := toNat_bitsLeft_add h.bitsLeft_lt
  have hrun : c.putDigit digit = .ok ⟨c.ptr + 1, c.buffer <<< 5 ||| digit.setWidth 32,
      c.bitsLeft + 5, c.count, c.output⟩ :=
    if_neg fun hbyte => hfew ((le_bitsLeft_iff h.bitsLeft_lt).mp hbyte)
  refine ⟨_, hrun, rfl, ⟨hptr, ?_, h.count_eq, h.length_le, h.output_eq, ?_⟩⟩
  · rw [hadd]
    omega
  · rw [hadd]
    exact hresult

/-- A digit that completes a byte. -/
theorem Decodes.putByte {digit : Byte} {room : Nat} (h : Decodes text outBuf result c written)
    (hout : outBuf.length < 2 ^ 32) (hptr : c.ptr < text.length)
    (hbyte : 8 ≤ c.bitsLeft.toNat + 5) (hroom : outBuf.length = written.length + (room + 1))
    (hresult : result = (decodeLoop (text.drop (c.ptr + 1)) room
      (c.buffer <<< 5 ||| digit.setWidth 32) (c.bitsLeft.toNat + 5 - 8)).map
        fun bytes => written ++ c.byte digit :: bytes) :
    ∃ d, c.putDigit digit = .ok d ∧ d.ptr = c.ptr + 1 ∧
      Decodes text outBuf result d (written ++ [c.byte digit]) := by
  have hbits := h.bitsLeft_lt
  have hcount := h.count_eq
  have hsub : (c.bitsLeft + 5 - 8).toNat = c.bitsLeft.toNat + 5 - 8 := by
    bv_omega
  have hrest : outBuf.drop written.length ≠ [] := by
    rw [Ne, List.drop_eq_nil_iff]
    omega
  have hstore : store c.output c.count.toNat (c.byte digit)
      = .ok (written ++ [c.byte digit] ++ (outBuf.drop written.length).tail) := by
    rw [hcount, h.output_eq, store_append hrest]
  have hrun : c.putDigit digit = .ok ⟨c.ptr + 1, c.buffer <<< 5 ||| digit.setWidth 32,
      c.bitsLeft + 5 - 8, c.count + 1,
        written ++ [c.byte digit] ++ (outBuf.drop written.length).tail⟩ := by
    refine (if_pos ((le_bitsLeft_iff hbits).mpr hbyte)).trans ?_
    rw [except_bind_of_ok (shr_eq_ok _ hsub (by omega))]
    exact except_bind_of_ok hstore
  have hlength : (written ++ [c.byte digit]).length = written.length + 1 := List.length_append
  refine ⟨_, hrun, rfl, ⟨hptr, ?_, ?_, ?_, ?_, ?_⟩⟩
  · rw [hsub]
    omega
  · rw [hlength]
    bv_omega
  · omega
  · rw [List.tail_drop, hlength]
  · have hroom' : outBuf.length - (written.length + 1) = room := by omega
    rw [hresult, hsub, hlength, hroom']
    refine congrArg (Option.map · _) ?_
    funext bytes
    rw [List.append_assoc, List.singleton_append]

/-- A digit does to the output what it does to the list. -/
theorem Decodes.putDigit {ch digit : Byte} {rest : List Byte}
    (h : Decodes text outBuf result c written) (hout : outBuf.length < 2 ^ 32)
    (hroom : written.length < outBuf.length) (hdrop : text.drop c.ptr = ch :: rest) (hzero : ch ≠ 0)
    (hspace : ch ∉ whitespace) (hdigit : lookupDigit (mistyped ch) = some digit) :
    ∃ d written', c.putDigit digit = .ok d ∧ d.ptr = c.ptr + 1 ∧
      Decodes text outBuf result d written' := by
  obtain ⟨hptr, _, hrest⟩ := drop_eq_cons hdrop
  obtain ⟨room, hroom'⟩ := Nat.exists_eq_add_of_lt hroom
  have hresult := h.result_eq
  rw [hdrop, ← hrest, hroom', Nat.add_assoc, Nat.add_sub_cancel_left,
    decodeLoop_digit hzero hspace hdigit] at hresult
  by_cases hbyte : 8 ≤ c.bitsLeft.toNat + 5
  · simp only [if_pos hbyte, Option.map_map] at hresult
    obtain ⟨d, hd⟩ := h.putByte hout hptr hbyte hroom' hresult
    exact ⟨d, _, hd⟩
  · simp only [if_neg hbyte] at hresult
    have hsub : outBuf.length - written.length = room + 1 := by omega
    rw [← hsub] at hresult
    obtain ⟨d, hd⟩ := h.putBits hptr hbyte hresult
    exact ⟨d, _, hd⟩

/-! ## The loop of the decoder -/

/-- What the loop comes to, by what the list functions give. -/
def Decoded (outBuf : List Byte) (result : Option (List Byte)) :
    Except Exit (Option Decoder) → Prop
  | .ok (some c) => ∃ written, result = some written ∧ c.count.toNat = written.length ∧
      written.length ≤ outBuf.length ∧ c.output = written ++ outBuf.drop written.length
  | .ok none => False
  | .error (.returns value _) => result = none ∧ value = -1
  | .error (.fault _) => False

theorem Decodes.decoded (h : Decodes text outBuf result c written)
    (hresult : result = some written) : Decoded outBuf result (.ok (some c)) :=
  ⟨written, hresult, h.count_eq, h.length_le, h.output_eq⟩

/-- The loop goes on from here to what the list functions give. -/
abbrev Continues (text outBuf : List Byte) (result : Option (List Byte)) (c : Decoder) : Prop :=
  Turns (Decoder.goesOn (text ++ [0]) (size outBuf)) (Decoder.turn (text ++ [0]))
    (fun c => ∃ written, Decodes text outBuf result c written) (fun c => text.length - c.ptr)
    (Decoded outBuf result) c

/-- There is no room. -/
theorem Decodes.continues_full (h : Decodes text outBuf result c written)
    (hout : outBuf.length < 2 ^ 32) (hfull : ¬ written.length < outBuf.length) :
    Continues text outBuf result c := by
  have hcount : ¬ c.count.toNat < outBuf.length := by
    rw [h.count_eq]
    exact hfull
  have hroom : outBuf.length - written.length = 0 := Nat.sub_eq_zero_of_le (Nat.le_of_not_lt hfull)
  refine .stop (goesOn_of_full hout hcount) (h.decoded ?_)
  rw [h.result_eq, hroom, decodeLoop_zero, Option.map_some, List.append_nil]

/-- The pointer is at the terminator. -/
theorem Decodes.continues_end (h : Decodes text outBuf result c written)
    (hout : outBuf.length < 2 ^ 32) (hroom : written.length < outBuf.length)
    (hdrop : text.drop c.ptr = []) : Continues text outBuf result c := by
  have hend : c.ptr = text.length := Nat.le_antisymm h.ptr_le (List.drop_eq_nil_iff.mp hdrop)
  have hload : (text ++ [0])[c.ptr]? = some 0 := by
    rw [hend, List.getElem?_concat_length]
  refine .stop (goesOn_of_load hout (h.count_eq ▸ hroom) hload) (h.decoded ?_)
  rw [h.result_eq, hdrop, decodeLoop, Option.map_some, List.append_nil]

/-- The pointer is at a character. -/
theorem Decodes.continues_char {ch : Byte} {rest : List Byte}
    (h : Decodes text outBuf result c written) (hout : outBuf.length < 2 ^ 32)
    (hroom : written.length < outBuf.length) (hdrop : text.drop c.ptr = ch :: rest)
    (hzero : ch ≠ 0) : Continues text outBuf result c := by
  obtain ⟨hlt, hget, hrest⟩ := drop_eq_cons hdrop
  have hresult := h.result_eq
  rw [hdrop] at hresult
  have hload : (text ++ [0])[c.ptr]? = some ch := by
    rw [List.getElem?_append_left hlt, hget]
  have hgoes : c.goesOn (text ++ [0]) (size outBuf) = .ok true := by
    rw [goesOn_of_load hout (h.count_eq ▸ hroom) hload, decide_eq_true hzero]
  have hread : orFault (load (text ++ [0]) c.ptr) = .ok ch := congrArg orFault (load_eq_ok hload)
  by_cases hspace : ch ∈ whitespace
  · have hturn : c.turn (text ++ [0]) = .ok { c with ptr := c.ptr + 1 } :=
      (except_bind_of_ok hread).trans (if_pos hspace)
    refine .turn _ hgoes hturn ⟨written, ⟨hlt, h.bitsLeft_lt, h.count_eq, h.length_le,
      h.output_eq, ?_⟩⟩ (Nat.sub_succ_lt_self _ _ hlt)
    rw [hresult, decodeLoop_space hzero hspace, hrest]
  · cases hdigit : lookupDigit (mistyped ch) with
    | none =>
        have hturn : c.turn (text ++ [0]) = .error (.returns (-1) c.output) := by
          refine (except_bind_of_ok hread).trans ?_
          rw [if_neg hspace, hdigit]
          rfl
        refine .raise _ hgoes hturn ⟨?_, rfl⟩
        obtain ⟨room, hroom'⟩ := Nat.exists_eq_add_of_lt hroom
        rw [hresult, hroom', Nat.add_assoc, Nat.add_sub_cancel_left,
          decodeLoop_invalid hzero hspace hdigit, Option.map_none]
    | some digit =>
        obtain ⟨d, written', hput, hptr, hd⟩ := h.putDigit hout hroom hdrop hzero hspace hdigit
        have hturn : c.turn (text ++ [0]) = .ok d := by
          refine (except_bind_of_ok hread).trans ?_
          rw [if_neg hspace, hdigit]
          exact congrArg orFault hput
        refine .turn d hgoes hturn ⟨written', hd⟩ ?_
        rw [hptr]
        exact Nat.sub_succ_lt_self _ _ hlt

theorem Decodes.continues (h : Decodes text outBuf result c written)
    (hout : outBuf.length < 2 ^ 32) (htext : 0 ∉ text) : Continues text outBuf result c := by
  by_cases hroom : written.length < outBuf.length
  · cases hdrop : text.drop c.ptr with
    | nil => exact h.continues_end hout hroom hdrop
    | cons ch rest =>
        refine h.continues_char hout hroom hdrop ?_
        rintro rfl
        exact htext (List.mem_of_getElem? (drop_eq_cons hdrop).2.1)
  · exact h.continues_full hout hroom

/-- What is returned for what the list functions give, with the output. -/
inductive Answers (outBuf : List Byte) : Option (List Byte) → Int × List Byte → Prop
  | bytes {bytes : List Byte} (length_le : bytes.length ≤ outBuf.length) :
      Answers outBuf (some bytes) ((BitVec.ofNat 32 bytes.length).toInt,
        bytes ++ if bytes.length < outBuf.length then 0 :: outBuf.drop (bytes.length + 1) else [])
  | invalid (output : List Byte) : Answers outBuf none (-1, output)

/-- The decoder ends without a fault, and without having read behind the
terminator, with what the list functions give. -/
theorem decode_settles (htext : 0 ∉ text) (hout : outBuf.length < 2 ^ 32) :
    ∃ answer, Settles (fun turns => decode turns (text ++ [0]) outBuf) (.ok (some answer)) ∧
      Answers outBuf (Base32.decode text outBuf.length) answer := by
  have hstart : ∃ written, Decodes text outBuf (Base32.decode text outBuf.length)
      ⟨0, 0, 0, 0, outBuf⟩ written := by
    refine ⟨[], Nat.zero_le _, Nat.zero_lt_succ 7, rfl, Nat.zero_le _, rfl, ?_⟩
    show _ = (Base32.decode text outBuf.length).map ([] ++ ·)
    simp
  have hcontinues : ∀ c, (∃ written, Decodes text outBuf (Base32.decode text outBuf.length) c
      written) → Continues text outBuf (Base32.decode text outBuf.length) c := by
    rintro c ⟨written, h⟩
    exact h.continues hout htext
  obtain ⟨r, hsettles, hdecoded⟩ := settles_while hcontinues hstart
  have hfinish := hsettles.map (finishDecoding (size outBuf))
  match r, hdecoded with
  | .ok (some c), ⟨written, hresult, hcount, hle, houtput⟩ =>
      have hterminate := terminate_run [] (toNat_size hout) hcount hle
      rw [List.append_nil, List.append_nil, ← houtput] at hterminate
      have hlast : finishDecoding (size outBuf) (.ok (some c)) = .ok (some (c.count.toInt,
          written ++ if written.length < outBuf.length then
            0 :: outBuf.drop (written.length + 1) else [])) := except_bind_of_ok hterminate
      have hvalue : c.count = BitVec.ofNat 32 written.length := by
        rw [← hcount, BitVec.ofNat_toNat, BitVec.setWidth_eq]
      rw [hlast] at hfinish
      refine ⟨_, hfinish, ?_⟩
      rw [hresult, hvalue]
      exact .bytes hle
  | .error (.returns value output), ⟨hresult, hvalue⟩ =>
      refine ⟨_, hfinish, ?_⟩
      rw [hresult, hvalue]
      exact .invalid output

end Decode

/-! ## Retyping -/

/-- How a human may type a character: with a letter in lower case, or with the
digit that looks like it. -/
inductive Typed : Byte → Byte → Prop
  | same (ch : Byte) : Typed ch ch
  | lower {ch : Byte} (le : 0x41 ≤ ch) (ge : ch ≤ 0x5a) : Typed ch (ch + 0x20)
  | zero : Typed 0x4f 0x30
  | one : Typed 0x4c 0x31
  | eight : Typed 0x42 0x38

/-- A text that is typed from the characters, with spaces, tabs, line breaks and
hyphens anywhere in it. -/
inductive Retyped : List Byte → List Byte → Prop
  | nil : Retyped [] []
  | space {ch : Byte} {chars text : List Byte} :
      ch ∈ whitespace → Retyped chars text → Retyped chars (ch :: text)
  | char {ch ch' : Byte} {chars text : List Byte} :
      Typed ch ch' → Retyped chars text → Retyped (ch :: chars) (ch' :: text)

section Retyped

variable {chars text outBuf s : List Byte} {ch ch' : Byte} {q : BitVec 5}

/-- However a character of the alphabet is typed, it is the same digit. -/
theorem Typed.digit (h : Typed ch ch') (hch : symbol q = ch) :
    ch' ≠ 0 ∧ ch' ∉ whitespace ∧ lookupDigit (mistyped ch') = some (q.setWidth 8) := by
  cases h with
  | same =>
      subst hch
      exact ⟨symbol_ne_zero q, symbol_notMem_whitespace q, lookupDigit_symbol q⟩
  | lower le ge =>
      subst hch
      revert q
      decide
  | zero =>
      revert q
      decide
  | one =>
      revert q
      decide
  | eight =>
      revert q
      decide

theorem zero_notMem_whitespace : 0 ∉ whitespace := by decide

theorem Retyped.zero_notMem {qs : List (BitVec 5)} (h : Retyped chars text)
    (hchars : qs.map symbol = chars) : 0 ∉ text := by
  induction h generalizing qs with
  | nil => exact List.not_mem_nil
  | space hspace _ ih =>
      rw [List.mem_cons, not_or]
      refine ⟨?_, ih hchars⟩
      rintro rfl
      exact zero_notMem_whitespace hspace
  | char htyped _ ih =>
      obtain ⟨q, qs, rfl, hq, hqs⟩ := List.map_eq_cons_iff.mp hchars
      rw [List.mem_cons, not_or]
      exact ⟨(htyped.digit hq).1.symm, ih hqs⟩

theorem Retyped.length_le (h : Retyped chars text) : chars.length ≤ text.length := by
  induction h with
  | nil => exact Nat.le_refl _
  | space _ _ ih => exact Nat.le_succ_of_le ih
  | char _ _ ih => exact Nat.succ_le_succ ih

/-- The decoder takes no notice of the typing. -/
theorem Retyped.decodeLoop_eq {qs : List (BitVec 5)} (h : Retyped chars text)
    (hchars : qs.map symbol = chars) (room : Nat) (buffer : BitVec 32) (n : Nat) :
    decodeLoop text room buffer n = decodeLoop chars room buffer n := by
  induction h generalizing qs room buffer n with
  | nil => rfl
  | @space ch chars text hspace _ ih =>
      have hzero : ch ≠ 0 := by
        rintro rfl
        exact zero_notMem_whitespace hspace
      rw [decodeLoop_space hzero hspace]
      exact ih hchars _ _ _
  | char htyped _ ih =>
      obtain ⟨q, qs, rfl, rfl, hqs⟩ := List.map_eq_cons_iff.mp hchars
      obtain ⟨hzero, hspace, hdigit⟩ := htyped.digit rfl
      cases room with
      | zero => rw [decodeLoop_zero, decodeLoop_zero]
      | succ room =>
          rw [decodeLoop_digit hzero hspace hdigit, decodeLoop_symbol, setWidth_digit]
          simp only [ih hqs]

theorem decode_retyped (h : Retyped (base32 s) text) (bufSize : Nat) :
    Base32.decode text bufSize = some (s.take bufSize) := by
  rw [← decode_base32 s bufSize]
  exact h.decodeLoop_eq rfl bufSize 0 0

/-- Decoding what was retyped gives back the bytes that were encoded, in every
buffer with room for them and a terminator.  The text and the buffer lie apart
in an address space of 32 bits. -/
theorem decode_retyped_settles (h : Retyped (base32 s) text) (hroom : s.length < outBuf.length)
    (hfits : text.length + 1 + outBuf.length ≤ 2 ^ 32) :
    Settles (fun turns => decode turns (text ++ [0]) outBuf)
      (.ok (some (s.length, s ++ 0 :: outBuf.drop (s.length + 1)))) := by
  have hlength := h.length_le
  rw [length_base32] at hlength
  obtain ⟨answer, hsettles, hanswers⟩ :=
    decode_settles (h.zero_notMem rfl) (show outBuf.length < 2 ^ 32 by omega)
  rw [decode_retyped h, List.take_of_length_le (Nat.le_of_lt hroom)] at hanswers
  cases hanswers with
  | bytes _ =>
      have hvalue : (BitVec.ofNat 32 s.length).toInt = s.length := by
        rw [BitVec.toInt_eq_toNat_of_lt, BitVec.toNat_ofNat, Nat.mod_eq_of_lt (by omega)]
        rw [BitVec.toNat_ofNat, Nat.mod_eq_of_lt (by omega)]
        omega
      rw [hvalue, if_pos hroom] at hsettles
      exact hsettles

/-- One byte is encoded as `OA`, and typed with a zero, a space and a small
letter. -/
theorem decode_retyped_settles_zero :
    Settles (fun turns => decode turns (ascii "0 a" ++ [0]) [1, 1, 1])
      (.ok (some (1, [0x70, 0, 1]))) := by
  have hretyped : Retyped (base32 [0x70]) (ascii "0 a") := by
    have hbase32 : base32 [0x70] = [0x4f, 0x41] := by decide
    rw [hbase32]
    exact .char .zero (.space (by decide) (.char (.lower (by decide) (by decide)) .nil))
  exact decode_retyped_settles hretyped (by decide) (by decide)

end Retyped

end Base32.Buffers
