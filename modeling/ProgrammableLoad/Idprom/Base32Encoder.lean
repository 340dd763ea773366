/-
# `Idprom.Base32Encoder` — the base32 encoder in memory

The encoder as it runs: counters of 32 bits, an input that is read by subscripts
and an output that is written by them.  It is there twice with the same text, in
`Util::Base32` over spans and in U-Boot over pointers.

Its loop refines that of `Idprom.Base32`, turn by turn, `Encodes.turn`.  Both
encoders end without a fault and with what the list functions give,
`encodeBuffer_settles`, at every capacity.
-/
import ProgrammableLoad.Cpp.Memory
import ProgrammableLoad.Idprom.Base32
import ProgrammableLoad.Theory.While

namespace Base32.Buffers

open Cpp Program

/-! ## Encoding -/

/-- The variables of the loop, with the output. -/
structure Encoder where
  buffer : BitVec 32
  next : Size
  bitsLeft : Size
  count : Int
  output : List Byte

namespace Encoder

/-- `count < bufSize && (bitsLeft > 0 || next < length)` -/
def goesOn (length bufSize : Size) (c : Encoder) : Bool :=
  decide (toSize c.count < bufSize) && (decide (0 < c.bitsLeft) || decide (c.next < length))

/-- The bits that are needed before a character is put out. -/
def refill (input : List Byte) (length : Size) (c : Encoder) : Except Fault Encoder :=
  if c.bitsLeft < 5 then
    if c.next < length then do
      let byte ← load input c.next.toNat
      return { c with
        buffer := c.buffer <<< 8 ||| (byte.setWidth 32 &&& 0xff)
        next := c.next + 1
        bitsLeft := c.bitsLeft + 8 }
    else do
      let pad := (5 - c.bitsLeft).toInt
      let buffer ← shl c.buffer pad
      return { c with
        buffer := buffer
        bitsLeft := c.bitsLeft + toSize pad }
  else
    return c

/-- `output[count++] = kChars[0x1F & (buffer >> (bitsLeft - 5))]` -/
def putCharacter (c : Encoder) : Except Fault Encoder := do
  let shifted ← shr c.buffer (c.bitsLeft - 5)
  let ch ← load kChars (0x1f &&& shifted).toNat
  let output ← store c.output (toSize c.count).toNat ch
  let count ← increment c.count
  return { c with
    bitsLeft := c.bitsLeft - 5
    count := count
    output := output }

def turn (input : List Byte) (length : Size) (c : Encoder) : Except Fault Encoder := do
  (← c.refill input length).putCharacter

end Encoder

/-- What the loop makes of the output, with the count of characters; nothing if
it takes more turns than these. -/
def putCharacters (turns : Nat) (input : List Byte) (length : Size) (output : List Byte)
    (bufSize : Size) : Except Fault (Option (Int × List Byte)) :=
  if 0 < length then do
    let byte ← load input 0
    let c ← whileLoop (fun c => .ok (c.goesOn length bufSize)) (Encoder.turn input length) turns
      ⟨byte.setWidth 32, 1, 8, 0, output⟩
    return c.map fun c => (c.count, c.output)
  else
    return some (0, output)

/-- `if(count < bufSize) { output[count] = '\000'; }` -/
def terminate (bufSize count : Size) (output : List Byte) : Except Fault (List Byte) :=
  if count < bufSize then store output count.toNat 0 else .ok output

/-- What follows the loop of the encoder. -/
def finishEncoding (bufSize : Size) :
    Option (Int × List Byte) → Except Fault (Option (Int × List Byte))
  | none => return none
  | some (count, output) => do
      let output ← terminate bufSize (toSize count) output
      return some (count, output)

/-- The text of both encoders: what is returned, with the output. -/
def encodeBuffer (turns : Nat) (input : List Byte) (length : Size) (output : List Byte)
    (bufSize : Size) : Except Fault (Option (Int × List Byte)) :=
  if 2 ^ 28 < length then
    .ok (some (-1, output))
  else do
    finishEncoding bufSize (← putCharacters turns input length output bufSize)

/-- `Util::Base32::Encode` -/
def encode (turns : Nat) (input output : List Byte) : Except Fault (Option (Int × List Byte)) :=
  encodeBuffer turns input (size input) output (size output)

/-- U-Boot's `do_encode_base32`. -/
def doEncodeBase32 (turns : Nat) (inData : List Byte) (inDataBytes : Size) (output : List Byte)
    (outputBytes : Size) : Except Fault (Option (Int × List Byte)) :=
  encodeBuffer turns inData inDataBytes output outputBytes

/-! ## One turn of the encoder -/

section Encode

variable {s beyond : List Byte} {c : Encoder}

theorem lt_size_iff (hs : s.length < 2 ^ 32) {n : Size} : n < size s ↔ n.toNat < s.length := by
  rw [BitVec.lt_def, toNat_size hs]

theorem setWidth_and_mask : ∀ byte : Byte, byte.setWidth 32 &&& 0xff = byte.setWidth 32 := by
  decide

/-- Refilling comes to what it does to the bits that are left. -/
structure Refilled (s : List Byte) (c d : Encoder) : Prop where
  refill_eq : Base32.refill c.buffer (s.drop c.next.toNat) c.bitsLeft.toNat
    = (d.buffer, s.drop d.next.toNat, d.bitsLeft.toNat)
  next_le : d.next.toNat ≤ s.length
  le_bitsLeft : 5 ≤ d.bitsLeft.toNat
  bitsLeft_le : d.bitsLeft.toNat ≤ 12
  count_eq : d.count = c.count
  output_eq : d.output = c.output

/-- One more byte. -/
theorem refill_read (hs : s.length < 2 ^ 32) (hfew : c.bitsLeft.toNat < 5)
    (hread : c.next.toNat < s.length) :
    ∃ d, c.refill (s ++ beyond) (size s) = .ok d ∧ Refilled s c d := by
  have hfew' : c.bitsLeft < 5 := hfew
  have hload : load (s ++ beyond) c.next.toNat = .ok s[c.next.toNat] := by
    apply load_eq_ok
    rw [List.getElem?_append_left hread, List.getElem?_eq_getElem hread]
  have hadd : (c.bitsLeft + 8).toNat = c.bitsLeft.toNat + 8 := by
    rw [BitVec.toNat_add]
    exact Nat.mod_eq_of_lt (by simp; omega)
  have hsucc : (c.next + 1).toNat = c.next.toNat + 1 := by
    rw [BitVec.toNat_add]
    exact Nat.mod_eq_of_lt (by simp; omega)
  have hrun : c.refill (s ++ beyond) (size s) = .ok { c with
      buffer := c.buffer <<< 8 ||| s[c.next.toNat].setWidth 32
      next := c.next + 1
      bitsLeft := c.bitsLeft + 8 } := by
    rw [Encoder.refill, if_pos hfew', if_pos ((lt_size_iff hs).mpr hread), hload,
      ← setWidth_and_mask]
    rfl
  refine ⟨_, hrun, ?_, ?_, ?_, ?_, rfl, rfl⟩
  · rw [List.drop_eq_getElem_cons hread, hadd, hsucc]
    exact if_pos hfew
  · rw [hsucc]
    exact hread
  · rw [hadd]
    omega
  · rw [hadd]
    omega

/-- Zeros behind the last byte. -/
theorem refill_pad (hs : s.length < 2 ^ 32) (hnext : c.next.toNat ≤ s.length)
    (hfew : c.bitsLeft.toNat < 5) (hpos : 0 < c.bitsLeft.toNat)
    (hend : ¬ c.next.toNat < s.length) :
    ∃ d, c.refill (s ++ beyond) (size s) = .ok d ∧ Refilled s c d := by
  have hfew' : c.bitsLeft < 5 := hfew
  have hnil : s.drop c.next.toNat = [] := List.drop_eq_nil_of_le (Nat.le_of_not_lt hend)
  have hsub : (5 - c.bitsLeft).toNat = 5 - c.bitsLeft.toNat := by
    bv_omega
  have hpad : (5 - c.bitsLeft).toInt = ((5 - c.bitsLeft.toNat : Nat) : Int) := by
    rw [BitVec.toInt_eq_toNat_of_lt (by omega), hsub]
  have hfull : (c.bitsLeft + toSize (5 - c.bitsLeft).toInt).toNat = 5 := by
    rw [hpad, BitVec.toNat_add, toNat_toSize (by omega)]
    omega
  have hrun : c.refill (s ++ beyond) (size s) = .ok { c with
      buffer := c.buffer <<< (5 - c.bitsLeft.toNat)
      bitsLeft := c.bitsLeft + toSize (5 - c.bitsLeft).toInt } := by
    rw [Encoder.refill, if_pos hfew', if_neg fun h => hend ((lt_size_iff hs).mp h)]
    simp only [hpad, shl_eq_ok c.buffer (show 5 - c.bitsLeft.toNat < 32 by omega)]
    rfl
  refine ⟨_, hrun, ?_, hnext, ?_, ?_, rfl, rfl⟩
  · rw [hnil, hfull]
    refine (if_pos hfew).trans ?_
    rw [Nat.add_sub_cancel' (Nat.le_of_lt hfew)]
  · rw [hfull]
  · rw [hfull]
    decide

theorem refill_run (hs : s.length < 2 ^ 32) (hnext : c.next.toNat ≤ s.length)
    (hbits : c.bitsLeft.toNat ≤ 8)
    (hmore : 0 < c.bitsLeft.toNat ∨ s.drop c.next.toNat ≠ []) :
    ∃ d, c.refill (s ++ beyond) (size s) = .ok d ∧ Refilled s c d := by
  by_cases hfew : c.bitsLeft.toNat < 5
  · by_cases hread : c.next.toNat < s.length
    · exact refill_read hs hfew hread
    · have hnil : s.drop c.next.toNat = [] := List.drop_eq_nil_of_le (Nat.le_of_not_lt hread)
      exact refill_pad hs hnext hfew (hmore.resolve_right fun h => h hnil) hread
  · have hrun : c.refill (s ++ beyond) (size s) = .ok c := by
      have hfew' : ¬ c.bitsLeft < 5 := hfew
      rw [Encoder.refill, if_neg hfew']
      rfl
    exact ⟨c, hrun, if_neg hfew, hnext, Nat.le_of_not_lt hfew, by omega, rfl, rfl⟩

/-- A subscript of five bits is one of the alphabet. -/
theorem load_kChars (x : BitVec 32) :
    load kChars (0x1f &&& x).toNat = .ok (symbol ((0x1f &&& x).setWidth 5)) := by
  have hall : ∀ q : BitVec 5, load kChars q.toNat = .ok (symbol q) := by decide
  have hmask : (0x1f &&& x).toNat = ((0x1f &&& x).setWidth 5).toNat := by
    have hlt : (0x1f &&& x).toNat < 2 ^ 5 := by
      rw [BitVec.toNat_and]
      exact Nat.lt_of_le_of_lt Nat.and_le_left (by decide)
    rw [BitVec.toNat_setWidth, Nat.mod_eq_of_lt hlt]
  rw [hmask]
  exact hall _

/-- The character goes behind those that were put out. -/
theorem putCharacter_run {written rest : List Byte} (hle : 5 ≤ c.bitsLeft.toNat)
    (hbits : c.bitsLeft.toNat ≤ 12) (hcount : c.count = written.length)
    (hfits : written.length < 2 ^ 31 - 1) (houtput : c.output = written ++ rest)
    (hrest : rest ≠ []) :
    c.putCharacter = .ok { c with
      bitsLeft := c.bitsLeft - 5
      count := (written ++ [symbol (index c.buffer c.bitsLeft.toNat)]).length
      output := written ++ [symbol (index c.buffer c.bitsLeft.toNat)] ++ rest.tail } := by
  have hsub : (c.bitsLeft - 5).toNat = c.bitsLeft.toNat - 5 := by
    bv_omega
  have hload : load kChars (0x1f &&& c.buffer >>> (c.bitsLeft.toNat - 5)).toNat
      = .ok (symbol (index c.buffer c.bitsLeft.toNat)) := load_kChars _
  have hstore : store c.output (toSize c.count).toNat
      (symbol (index c.buffer c.bitsLeft.toNat))
        = .ok (written ++ [symbol (index c.buffer c.bitsLeft.toNat)] ++ rest.tail) := by
    rw [hcount, toNat_toSize (by omega), houtput, store_append hrest]
  have hincrement : increment c.count
      = .ok ↑(written ++ [symbol (index c.buffer c.bitsLeft.toNat)]).length := by
    rw [hcount, increment_eq_ok hfits, List.length_append]
    rfl
  rw [Encoder.putCharacter, except_bind_of_ok (shr_eq_ok c.buffer hsub (by omega)),
    except_bind_of_ok hload, except_bind_of_ok hstore, except_bind_of_ok hincrement]
  rfl

/-! ## The loop of the encoder -/

/-- Between two turns: what was put out is in front of what was there before,
and what is to come follows from the bits that are left. -/
structure Encodes (s memory chars : List Byte) (bufSize : Nat) (c : Encoder)
    (written : List Byte) : Prop where
  count_eq : c.count = written.length
  length_le : written.length ≤ bufSize
  output_eq : c.output = written ++ memory.drop written.length
  next_le : c.next.toNat ≤ s.length
  bitsLeft_le : c.bitsLeft.toNat ≤ 8
  chars_eq : chars = written ++
    encodeLoop (bufSize - written.length) c.buffer (s.drop c.next.toNat) c.bitsLeft.toNat

variable {memory chars written : List Byte} {bufSize : Size}

theorem Encodes.goesOn_iff (h : Encodes s memory chars bufSize.toNat c written)
    (hs : s.length < 2 ^ 32) :
    c.goesOn (size s) bufSize = true ↔ written.length < bufSize.toNat ∧
      (0 < c.bitsLeft.toNat ∨ s.drop c.next.toNat ≠ []) := by
  have hcount : (toSize c.count).toNat = written.length := by
    rw [h.count_eq, toNat_toSize (Nat.lt_of_le_of_lt h.length_le bufSize.isLt)]
  rw [Encoder.goesOn, Bool.and_eq_true, Bool.or_eq_true, decide_eq_true_iff, decide_eq_true_iff,
    decide_eq_true_iff, lt_size_iff hs, BitVec.lt_def, hcount, BitVec.lt_def, Ne,
    List.drop_eq_nil_iff, Nat.not_le]
  rfl

/-- The loop ends where there is no room or nothing to put out. -/
theorem Encodes.stop (h : Encodes s memory chars bufSize.toNat c written)
    (hs : s.length < 2 ^ 32) (hstop : ¬ c.goesOn (size s) bufSize = true) : chars = written := by
  rw [h.goesOn_iff hs, not_and_or, Nat.not_lt] at hstop
  have hnil : encodeLoop (bufSize.toNat - written.length) c.buffer (s.drop c.next.toNat)
      c.bitsLeft.toNat = [] := by
    rcases hstop with hfull | hdone
    · rw [Nat.sub_eq_zero_of_le hfull]
      rfl
    · cases bufSize.toNat - written.length with
      | zero => rfl
      | succ room => exact if_neg hdone
  rw [h.chars_eq, hnil, List.append_nil]

theorem Encodes.turn (h : Encodes s memory chars bufSize.toNat c written)
    (hs : s.length < 2 ^ 32) (hchars : chars.length < 2 ^ 31)
    (hmemory : bufSize.toNat ≤ memory.length) (hgoes : c.goesOn (size s) bufSize = true) :
    ∃ d ch, c.turn (s ++ beyond) (size s) = .ok d ∧
      Encodes s memory chars bufSize.toNat d (written ++ [ch]) := by
  obtain ⟨hroom, hmore⟩ := (h.goesOn_iff hs).mp hgoes
  obtain ⟨d, hrefill, hrefilled⟩ := refill_run hs h.next_le h.bitsLeft_le hmore
  obtain ⟨room, hroom'⟩ := Nat.exists_eq_add_of_lt hroom
  have hcons : chars = written ++ symbol (index d.buffer d.bitsLeft.toNat) ::
      encodeLoop room d.buffer (s.drop d.next.toNat) (d.bitsLeft.toNat - 5) := by
    have hsub : bufSize.toNat - written.length = room + 1 := by omega
    rw [h.chars_eq, hsub, encodeLoop, if_pos hmore, hrefilled.refill_eq]
  have hlength := congrArg List.length hcons
  rw [List.length_append, List.length_cons] at hlength
  have hrest : memory.drop written.length ≠ [] := by
    rw [Ne, List.drop_eq_nil_iff]
    omega
  have hput := putCharacter_run hrefilled.le_bitsLeft hrefilled.bitsLeft_le
    (hrefilled.count_eq.trans h.count_eq) (by omega) (hrefilled.output_eq.trans h.output_eq) hrest
  have hsub : (d.bitsLeft - 5).toNat = d.bitsLeft.toNat - 5 := by
    have hle := hrefilled.le_bitsLeft
    bv_omega
  refine ⟨_, _, (except_bind_of_ok hrefill).trans hput, ⟨rfl, ?_, ?_, hrefilled.next_le, ?_, ?_⟩⟩
  · rw [List.length_append]
    exact hroom
  · rw [List.tail_drop, List.length_append]
    rfl
  · have hle := hrefilled.bitsLeft_le
    rw [hsub]
    omega
  · rw [hcons, List.length_append, List.length_singleton, hsub, List.append_assoc,
      List.singleton_append]
    congr 3
    omega

variable (beyond) in
theorem whileLoop_encodes (hs : s.length < 2 ^ 32) (hchars : chars.length < 2 ^ 31)
    (hmemory : bufSize.toNat ≤ memory.length)
    (h : Encodes s memory chars bufSize.toNat c written) :
    ∃ d : Encoder, d.count = chars.length ∧ d.output = chars ++ memory.drop chars.length ∧
      Settles (fun turns => whileLoop (fun c => .ok (c.goesOn (size s) bufSize))
        (Encoder.turn (s ++ beyond) (size s)) turns c) (.ok (some d)) := by
  have hturns : ∀ c, (∃ written, Encodes s memory chars bufSize.toNat c written) →
      Turns (fun c => .ok (c.goesOn (size s) bufSize)) (Encoder.turn (s ++ beyond) (size s))
        (fun c => ∃ written, Encodes s memory chars bufSize.toNat c written)
        (fun c => bufSize.toNat - c.count.toNat)
        (fun r => ∃ d : Encoder, r = .ok (some d) ∧ d.count = chars.length ∧
          d.output = chars ++ memory.drop chars.length) c := by
    rintro c ⟨written, h⟩
    by_cases hgoes : c.goesOn (size s) bufSize = true
    · obtain ⟨d, ch, hturn, hd⟩ := h.turn hs hchars hmemory hgoes
      refine .turn d (congrArg Except.ok hgoes) hturn ⟨_, hd⟩ ?_
      have hlt := ((h.goesOn_iff hs).mp hgoes).1
      rw [hd.count_eq, h.count_eq, Int.toNat_natCast, Int.toNat_natCast, List.length_append,
        List.length_singleton]
      omega
    · have hwritten := h.stop hs hgoes
      refine .stop (congrArg Except.ok (Bool.eq_false_iff.mpr hgoes)) ⟨c, rfl, ?_, ?_⟩
      · rw [h.count_eq, hwritten]
      · rw [h.output_eq, hwritten]
  obtain ⟨_, hsettles, d, rfl, hcount, houtput⟩ := settles_while hturns ⟨written, h⟩
  exact ⟨d, hcount, houtput, hsettles⟩

variable (beyond) in
/-- The characters are put out that the list functions give. -/
theorem putCharacters_settles (hs : s.length < 2 ^ 32)
    (hchars : (encodeChars s bufSize.toNat).length < 2 ^ 31)
    (hmemory : bufSize.toNat ≤ memory.length) :
    Settles (fun turns => putCharacters turns (s ++ beyond) (size s) memory bufSize)
      (.ok (some ((encodeChars s bufSize.toNat).length, encodeChars s bufSize.toNat ++
        memory.drop (encodeChars s bufSize.toNat).length))) := by
  cases s with
  | nil => exact settles_const _
  | cons byte s =>
      have hpos : 0 < size (byte :: s) := (lt_size_iff hs).mpr (Nat.succ_pos _)
      have hstart : Encodes (byte :: s) memory (encodeChars (byte :: s) bufSize.toNat)
          bufSize.toNat ⟨byte.setWidth 32, 1, 8, 0, memory⟩ [] :=
        ⟨rfl, Nat.zero_le _, rfl, Nat.succ_le_succ (Nat.zero_le _), Nat.le_refl _, rfl⟩
      obtain ⟨d, hcount, houtput, hsettles⟩ :=
        whileLoop_encodes beyond hs hchars hmemory hstart
      rw [← hcount, ← houtput]
      refine (hsettles.map fun r => r >>= fun c => return c.map fun c => (c.count, c.output)).congr
        fun turns => ?_
      rw [putCharacters, if_pos hpos]
      rfl

/-- What the list functions give, for a memory that goes on behind the output. -/
def answer (memory behind : List Byte) : Option (Nat × List Byte) → Int × List Byte
  | none => (-1, memory)
  | some (count, output) => (count, output ++ behind)

/-- The terminator goes behind what was put out, if there is room. -/
theorem terminate_run {out : List Byte} (behind : List Byte) {bufSize count : Size}
    (hbufSize : bufSize.toNat = out.length) (hcount : count.toNat = written.length)
    (hle : written.length ≤ out.length) :
    terminate bufSize count (written ++ (out ++ behind).drop written.length)
      = .ok (written ++ (if written.length < out.length then
          0 :: out.drop (written.length + 1) else []) ++ behind) := by
  have hroom : count < bufSize ↔ written.length < out.length := by
    rw [BitVec.lt_def, hcount, hbufSize]
  by_cases hlt : written.length < out.length
  · have hrest : (out ++ behind).drop written.length ≠ [] := by
      rw [Ne, List.drop_eq_nil_iff, List.length_append]
      omega
    rw [terminate, if_pos (hroom.mpr hlt), if_pos hlt, hcount, store_append hrest, List.tail_drop,
      List.drop_append_of_le_length hlt]
    simp
  · have hfull : written.length = out.length := Nat.le_antisymm hle (Nat.le_of_not_lt hlt)
    rw [terminate, if_neg fun h => hlt (hroom.mp h), if_neg hlt, hfull, List.drop_left,
      List.append_nil]

theorem length_encodeChars (s : List Byte) (bufSize : Nat) :
    (encodeChars s bufSize).length = min bufSize ((8 * s.length + 4) / 5) := by
  rw [encodeChars_eq, List.length_take, length_base32]

theorem encodeBuffer_settles {out behind : List Byte} (hs : s.length < 2 ^ 32)
    (hout : out.length < 2 ^ 32) :
    Settles (fun turns => encodeBuffer turns (s ++ beyond) (size s) (out ++ behind) (size out))
      (.ok (some (answer (out ++ behind) behind (Base32.encode s out)))) := by
  have hbufSize : (size out).toNat = out.length := toNat_size hout
  have hlong_iff : 2 ^ 28 < size s ↔ 2 ^ 28 < s.length := by
    rw [BitVec.lt_def, toNat_size hs]
    exact Iff.rfl
  by_cases hlong : 2 ^ 28 < s.length
  · refine (settles_const _).congr fun turns => ?_
    rw [encodeBuffer, if_pos (hlong_iff.mpr hlong), Base32.encode, if_pos hlong]
    rfl
  · have hlength := length_encodeChars s out.length
    have hroom : (size out).toNat ≤ (out ++ behind).length := by
      rw [hbufSize, List.length_append]
      exact Nat.le_add_right _ _
    have hchars : (encodeChars s (size out).toNat).length < 2 ^ 31 := by
      rw [hbufSize, hlength]
      omega
    have hsettles := putCharacters_settles beyond hs hchars hroom
    rw [hbufSize] at hsettles
    have hcount : (toSize (encodeChars s out.length).length).toNat
        = (encodeChars s out.length).length := toNat_toSize (by omega)
    have hterminate := terminate_run behind hbufSize hcount (by omega)
    have hanswer : (.ok (some (((encodeChars s out.length).length : Int),
        encodeChars s out.length ++ (out ++ behind).drop (encodeChars s out.length).length)) >>=
          finishEncoding (size out))
        = .ok (some (answer (out ++ behind) behind (Base32.encode s out))) := by
      refine (except_bind_of_ok hterminate).trans ?_
      rw [Base32.encode, if_neg hlong]
      rfl
    rw [← hanswer]
    refine (hsettles.map fun r => r >>= finishEncoding (size out)).congr fun turns => ?_
    exact if_neg fun h => hlong (hlong_iff.mp h)

/-- The count with the contents of the output: the first characters of the
encoding, as many as there are and as there is room for, a terminator if there
is room for it as well, and the rest as it was. -/
def encoded (s out : List Byte) : Int × List Byte :=
  let count := min out.length ((8 * s.length + 4) / 5)
  (count, (base32 s).take count ++ if count < out.length then 0 :: out.drop (count + 1) else [])

theorem answer_encode {out : List Byte} (hs : s.length ≤ 2 ^ 28) (memory behind : List Byte) :
    answer memory behind (Base32.encode s out)
      = ((encoded s out).1, (encoded s out).2 ++ behind) := by
  have htake : encodeChars s out.length
      = (base32 s).take (min out.length ((8 * s.length + 4) / 5)) := by
    rw [encodeChars_eq, List.take_eq_take_min, length_base32]
  rw [Base32.encode, if_neg (Nat.not_lt.mpr hs)]
  show (((encodeChars s out.length).length : Int), _) = _
  rw [length_encodeChars, htake]
  rfl

/-- Both encoders put out the encoding, at every capacity of the output and
whatever there is behind the input and the output. -/
theorem encoders_settle (s out beyond behind : List Byte) (hs : s.length ≤ 2 ^ 28)
    (hout : out.length < 2 ^ 32) :
    Settles (fun turns => encode turns s out) (.ok (some (encoded s out))) ∧
      Settles (fun turns =>
        doEncodeBase32 turns (s ++ beyond) (size s) (out ++ behind) (size out))
        (.ok (some ((encoded s out).1, (encoded s out).2 ++ behind))) := by
  have hall : ∀ beyond behind : List Byte, Settles (fun turns =>
      encodeBuffer turns (s ++ beyond) (size s) (out ++ behind) (size out))
        (.ok (some ((encoded s out).1, (encoded s out).2 ++ behind))) := by
    intro beyond behind
    rw [← answer_encode hs (out ++ behind) behind]
    exact encodeBuffer_settles (Nat.lt_of_le_of_lt hs (by decide)) hout
  refine ⟨?_, hall beyond behind⟩
  have hspan := hall [] []
  rw [List.append_nil, List.append_nil, List.append_nil] at hspan
  exact hspan

theorem encoders_settle_four_characters :
    Settles (fun turns => encode turns [0xff] [1, 1, 1, 1]) (.ok (some (2, ascii "74" ++ [0, 1]))) ∧
      Settles (fun turns => doEncodeBase32 turns [0xff, 2] 1 [1, 1, 1, 1, 3] 4)
        (.ok (some (2, ascii "74" ++ [0, 1, 3]))) := by
  have hencoded : encoded [0xff] [1, 1, 1, 1] = (2, ascii "74" ++ [0, 1]) := by decide
  have h := encoders_settle [0xff] [1, 1, 1, 1] [2] [3] (by decide) (by decide)
  rw [hencoded] at h
  exact h

end Encode

end Base32.Buffers
