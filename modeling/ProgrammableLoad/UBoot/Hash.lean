/-
# `UBoot.Hash` — the hash of the serial number in memory

`do_hash_murmurhash3` reads its input by pointers: the loop over the blocks
counts up from a negative number to zero and addresses each block from the end
of the last one, and the cases of the switch over the bytes behind them fall
through.  `FormatSerialNumber` puts the hash out in base32.

Nothing but the input is read, and the result is that of the list functions of
`UBoot.ConfProm`, `doHashMurmurhash3_settles`.  Each step of the hash turns the
words into one another, so a change of one block alone always shows in the
hash, and in the text.

A pointer has 32 bits, and a word is read through a pointer to words, which has
to be a multiple of four.
-/
import ProgrammableLoad.Idprom.Base32Encoder
import ProgrammableLoad.Theory.Mixing
import ProgrammableLoad.UBoot.ConfProm

namespace UBoot

open Cpp Program

/-! ## The functions -/

abbrev Pointer := BitVec 32

/-- The bytes that may be read, from an address on. -/
structure Region where
  base : Pointer
  bytes : List Byte

/-- `*p` -/
def Region.read (m : Region) (p : Pointer) : Except Fault Byte := load m.bytes (p - m.base).toNat

/-- `a * b` for two `int`s. -/
def mulInt (a b : Int) : Except Fault Int :=
  if -2 ^ 31 ≤ a * b ∧ a * b < 2 ^ 31 then .ok (a * b) else .error (.undefined "*")

/-- `(uint32_t *) p`, from where a word is read. -/
def wordPointer (p : Pointer) : Except Fault Pointer :=
  if 4 ∣ p.toNat then .ok p else .error (.undefined "*")

/-- `read_little_endian32` -/
def readLittleEndian32 (m : Region) (array : Pointer) (pos : BitVec 64) :
    Except Fault (BitVec 32) := do
  let p ← wordPointer (array + pos.setWidth 32)
  let b0 ← m.read p
  let b1 ← m.read (p + 1)
  let b2 ← m.read (p + 2)
  let b3 ← m.read (p + 3)
  return littleEndian [b0, b1, b2, b3]

/-- `getblock32` -/
def getblock32 (m : Region) (p : Pointer) (i : Int) : Except Fault (BitVec 32) := do
  let pos ← mulInt 4 i
  readLittleEndian32 m p (.ofInt 64 pos)

/-- The variables of the loop. -/
structure Hasher where
  i : Int
  h1 : BitVec 32

/-- A turn of the loop over the blocks. -/
def Hasher.turn (m : Region) (blocks : Pointer) (c : Hasher) : Except Fault Hasher := do
  let k1 ← getblock32 m blocks c.i
  let h1 := rotl32 (c.h1 ^^^ scramble k1) 13 * 5 + 0xe6546b64
  let i ← increment c.i
  return ⟨i, h1⟩

/-- `case 1` -/
def tailCase1 (m : Region) (tail : Pointer) (h1 k1 : BitVec 32) : Except Fault (BitVec 32) := do
  let b0 ← m.read tail
  return h1 ^^^ scramble (k1 ^^^ b0.setWidth 32)

/-- `case 2`, which falls into `case 1`. -/
def tailCase2 (m : Region) (tail : Pointer) (h1 k1 : BitVec 32) : Except Fault (BitVec 32) := do
  let b1 ← m.read (tail + 1)
  tailCase1 m tail h1 (k1 ^^^ b1.setWidth 32 <<< 8)

/-- `case 3`, which falls into `case 2`. -/
def tailCase3 (m : Region) (tail : Pointer) (h1 k1 : BitVec 32) : Except Fault (BitVec 32) := do
  let b2 ← m.read (tail + 2)
  tailCase2 m tail h1 (k1 ^^^ b2.setWidth 32 <<< 16)

/-- `switch(inDataBytes & 3)` -/
def mixTail (m : Region) (tail : Pointer) (inDataBytes : Size) (h1 : BitVec 32) :
    Except Fault (BitVec 32) :=
  if inDataBytes &&& 3 = 3 then tailCase3 m tail h1 0
  else if inDataBytes &&& 3 = 2 then tailCase2 m tail h1 0
  else if inDataBytes &&& 3 = 1 then tailCase1 m tail h1 0
  else .ok h1

/-- What follows the loop over the blocks. -/
def finishHash (m : Region) (inData : Pointer) (inDataBytes : Size) :
    Option Hasher → Except Fault (Option (BitVec 32))
  | none => return none
  | some c => do
      let behind ← mulInt (inDataBytes / 4).toNat 4
      let h1 ← mixTail m (inData + .ofInt 32 behind) inDataBytes c.h1
      return some (fmix32 (h1 ^^^ inDataBytes))

/-- `do_hash_murmurhash3`, nothing if the loop takes more turns than these. -/
def doHashMurmurhash3 (turns : Nat) (m : Region) (inData : Pointer) (inDataBytes : Size)
    (seed : BitVec 32) : Except Fault (Option (BitVec 32)) := do
  let nblocks : Int := (inDataBytes / 4).toNat
  let behind ← mulInt nblocks 4
  let c ← whileLoop (fun c => .ok (decide (c.i ≠ 0)))
    (Hasher.turn m (inData + .ofInt 32 behind)) turns ⟨-nblocks, seed⟩
  finishHash m inData inDataBytes c

/-- The bytes of a word in memory. -/
def wordBytes (value : BitVec 32) : List Byte :=
  (List.range 4).map fun i => (value >>> (8 * i)).setWidth 8

/-- The output of the encoder, once the hash is there. -/
def encodeHash (turns : Nat) : Option (BitVec 32) → Except Fault (Option (List Byte))
  | none => return none
  | some value => do
      let r ← Base32.Buffers.doEncodeBase32 turns (wordBytes value) 4
        (List.replicate kSerialStrLen 0) (.ofNat 32 kSerialStrLen)
      return r.map (·.2)

/-- `FormatSerialNumber`, with what it leaves in `gDeviceSerial`. -/
def formatSerialNumberAt (turns : Nat) (m : Region) (snBytes : Pointer) (numSnBytes : Size) :
    Except Fault (Option (List Byte)) := do
  let value ← doHashMurmurhash3 turns m snBytes numSnBytes kSeed
  encodeHash turns value

/-! ## The input is read by subscripts -/

section Memory

variable {m : Region} {s beyond front rest : List Byte} {base : Pointer} {h1 : BitVec 32}

theorem setWidth_ofInt (z : Int) : (BitVec.ofInt 64 z).setWidth 32 = BitVec.ofInt 32 z := by
  apply BitVec.eq_of_toNat_eq
  rw [BitVec.toNat_setWidth, BitVec.toNat_ofInt, BitVec.toNat_ofInt]
  omega

theorem read_eq_ok {k : Nat} {b : Byte} (hk : k < 2 ^ 32) (h : m.bytes[k]? = some b) :
    m.read (m.base + .ofNat 32 k) = .ok b := by
  have hsub : m.base + .ofNat 32 k - m.base = .ofNat 32 k := by
    rw [BitVec.add_comm, BitVec.add_sub_cancel]
  rw [Region.read, hsub, BitVec.toNat_ofNat, Nat.mod_eq_of_lt hk]
  exact load_eq_ok h

/-- The byte `j` places behind the front. -/
theorem read_front {j : Nat} {b : Byte} (hbytes : m.bytes = front ++ rest)
    (hlength : front.length + j < 2 ^ 32) (h : rest[j]? = some b) :
    m.read (m.base + .ofNat 32 front.length + .ofNat 32 j) = .ok b := by
  rw [BitVec.add_assoc, ← BitVec.ofNat_add]
  apply read_eq_ok hlength
  rw [hbytes, List.getElem?_append_right (Nat.le_add_right _ _), Nat.add_sub_cancel_left]
  exact h

theorem read_first {b : Byte} (hbytes : m.bytes = front ++ b :: rest)
    (hlength : front.length < 2 ^ 32) : m.read (m.base + .ofNat 32 front.length) = .ok b := by
  have h := read_front (j := 0) hbytes hlength rfl
  rwa [show BitVec.ofNat 32 0 = 0#32 from rfl, BitVec.add_zero] at h

theorem wordPointer_front {n : Nat} (hbase : 4 ∣ base.toNat) (hfront : front.length = 4 * n) :
    wordPointer (base + .ofNat 32 front.length) = .ok (base + .ofNat 32 front.length) := by
  refine if_pos ?_
  rw [BitVec.toNat_add, BitVec.toNat_ofNat]
  omega

theorem readLittleEndian32_front {k : Nat} {array : Pointer} {pos : BitVec 64} {b0 b1 b2 b3 : Byte}
    (hbase : 4 ∣ m.base.toNat) (hfront : front.length = 4 * k)
    (hbytes : m.bytes = front ++ b0 :: b1 :: b2 :: b3 :: rest)
    (hlength : front.length + 3 < 2 ^ 32)
    (hpos : array + pos.setWidth 32 = m.base + .ofNat 32 front.length) :
    readLittleEndian32 m array pos = .ok (littleEndian [b0, b1, b2, b3]) := by
  have h0 := read_first hbytes (by omega)
  have h1 : m.read (m.base + .ofNat 32 front.length + 1) = .ok b1 :=
    read_front hbytes (j := 1) (by omega) rfl
  have h2 : m.read (m.base + .ofNat 32 front.length + 2) = .ok b2 :=
    read_front hbytes (j := 2) (by omega) rfl
  have h3 : m.read (m.base + .ofNat 32 front.length + 3) = .ok b3 :=
    read_front hbytes (j := 3) (by omega) rfl
  rw [readLittleEndian32, hpos, except_bind_of_ok (wordPointer_front hbase hfront),
    except_bind_of_ok h0, except_bind_of_ok h1, except_bind_of_ok h2, except_bind_of_ok h3]
  rfl

/-! ## The blocks -/

theorem mulInt_eq_ok {a b : Int} (hlow : -2 ^ 31 ≤ a * b) (hhigh : a * b < 2 ^ 31) :
    mulInt a b = .ok (a * b) := if_pos ⟨hlow, hhigh⟩

/-- A turn with `n + 1` blocks to go takes the first one behind the front. -/
theorem turn_eq_ok (h1 : BitVec 32) {k n : Nat} {blocks : Pointer} {b0 b1 b2 b3 : Byte}
    (hbase : 4 ∣ m.base.toNat) (hfront : front.length = 4 * k)
    (hbytes : m.bytes = front ++ b0 :: b1 :: b2 :: b3 :: rest)
    (hlength : front.length + 4 * (n + 1) < 2 ^ 31)
    (hblocks : blocks = m.base + .ofNat 32 (front.length + 4 * (n + 1))) :
    Hasher.turn m blocks ⟨-(n + 1 : Nat), h1⟩
      = .ok ⟨-n, rotl32 (h1 ^^^ scramble (littleEndian [b0, b1, b2, b3])) 13 * 5 + 0xe6546b64⟩ := by
  have hmul : mulInt 4 (-(n + 1 : Nat)) = .ok (4 * -(n + 1 : Nat)) :=
    mulInt_eq_ok (by omega) (by omega)
  have hpos : blocks + (BitVec.ofInt 64 (4 * -(n + 1 : Nat))).setWidth 32
      = m.base + .ofNat 32 front.length := by
    have hsum : ((front.length + 4 * (n + 1) : Nat) : Int) + 4 * -(n + 1 : Nat)
        = (front.length : Nat) := by
      push_cast
      ring
    rw [setWidth_ofInt, hblocks, BitVec.add_assoc, ← BitVec.ofInt_natCast, ← BitVec.ofInt_natCast,
      ← BitVec.ofInt_add, hsum]
  have hget : getblock32 m blocks (-(n + 1 : Nat)) = .ok (littleEndian [b0, b1, b2, b3]) := by
    rw [getblock32, except_bind_of_ok hmul]
    exact readLittleEndian32_front hbase hfront hbytes (by omega) hpos
  have hincrement : increment (-(n + 1 : Nat)) = .ok (-n) := by
    have hsucc : -((n + 1 : Nat) : Int) + 1 = -n := by
      push_cast
      ring
    rw [increment, if_pos (by omega), hsucc]
  rw [Hasher.turn, except_bind_of_ok hget]
  exact except_bind_of_ok hincrement

theorem exists_block {rest : List Byte} (h : 4 ≤ rest.length) :
    ∃ b0 b1 b2 b3 behind, rest = b0 :: b1 :: b2 :: b3 :: behind := by
  rcases rest with _ | ⟨b0, _ | ⟨b1, _ | ⟨b2, _ | ⟨b3, behind⟩⟩⟩⟩
  · cases h
  · simp at h
  · simp at h
  · simp at h
  · exact ⟨b0, b1, b2, b3, behind, rfl⟩

theorem hashBlocks_block (b0 b1 b2 b3 : Byte) (rest : List Byte) (h1 : BitVec 32) :
    hashBlocks (b0 :: b1 :: b2 :: b3 :: rest) h1 = hashBlocks rest
      (rotl32 (h1 ^^^ scramble (littleEndian [b0, b1, b2, b3])) 13 * 5 + 0xe6546b64) := by
  conv_lhs => rw [hashBlocks.eq_def]

/-- The loop takes the blocks from the front on. -/
theorem settles_blocks (h1 : BitVec 32) {k : Nat} {blocks : Pointer} (n : Nat)
    (hbase : 4 ∣ m.base.toNat) (hfront : front.length = 4 * k)
    (hbytes : m.bytes = front ++ (rest ++ beyond)) (hrest : 4 * n ≤ rest.length)
    (hlength : front.length + 4 * n < 2 ^ 31)
    (hblocks : blocks = m.base + .ofNat 32 (front.length + 4 * n)) :
    ∃ h, Settles (fun turns => whileLoop (fun c => .ok (decide (c.i ≠ 0))) (Hasher.turn m blocks)
        turns ⟨-n, h1⟩) (.ok (some ⟨0, h⟩)) ∧
      hashBlocks rest h1 = hashBlocks (rest.drop (4 * n)) h := by
  induction n generalizing front rest h1 k with
  | zero => exact ⟨h1, settles_stop rfl, by rw [Nat.mul_zero, List.drop_zero]⟩
  | succ n ih =>
      have hblock : 4 ≤ rest.length := by omega
      obtain ⟨b0, b1, b2, b3, behind, rfl⟩ := exists_block hblock
      have hlast : front.length + 4 * (n + 1) = (front ++ [b0, b1, b2, b3]).length + 4 * n := by
        rw [List.length_append]
        simp
        omega
      have hturn := turn_eq_ok h1 hbase hfront hbytes hlength hblocks
      have hnext : (front ++ [b0, b1, b2, b3]).length = 4 * (k + 1) := by
        rw [List.length_append, hfront]
        rfl
      rw [hlast] at hlength hblocks
      have hbehind : m.bytes = (front ++ [b0, b1, b2, b3]) ++ (behind ++ beyond) := by
        rw [hbytes, List.append_assoc]
        rfl
      obtain ⟨h, hsettles, hhash⟩ :=
        ih (rotl32 (h1 ^^^ scramble (littleEndian [b0, b1, b2, b3])) 13 * 5 + 0xe6546b64)
          hnext hbehind (by simp at hrest; omega) hlength hblocks
      refine ⟨h, settles_turn (congrArg Except.ok ?_) hturn hsettles, ?_⟩
      · have hne : -((n + 1 : Nat) : Int) ≠ 0 := by omega
        exact decide_eq_true hne
      · have hdrop : (b0 :: b1 :: b2 :: b3 :: behind).drop (4 * (n + 1)) = behind.drop (4 * n) := by
          rw [Nat.mul_succ]
          rfl
        rw [hdrop, hashBlocks_block, hhash]

/-! ## The bytes behind the blocks -/

/-- A byte goes below the ones that were shifted up. -/
theorem littleEndian_cons (b : Byte) (bytes : List Byte) :
    littleEndian (b :: bytes) = littleEndian bytes <<< 8 ^^^ b.setWidth 32 := by
  rw [littleEndian]
  apply BitVec.eq_of_getLsbD_eq
  intro i hi
  rw [BitVec.getLsbD_or, BitVec.getLsbD_xor]
  by_cases hlow : i < 8
  · have hzero : (littleEndian bytes <<< 8).getLsbD i = false := by simp [hlow]
    rw [hzero, Bool.false_or, Bool.false_xor]
  · have hzero : (b.setWidth 32).getLsbD i = false := by
      rw [BitVec.getLsbD_setWidth, BitVec.getLsbD_of_ge b i (Nat.le_of_not_lt hlow), Bool.and_false]
    rw [hzero, Bool.or_false, Bool.xor_false]

theorem littleEndian_one (b0 : Byte) : littleEndian [b0] = (0 : BitVec 32) ^^^ b0.setWidth 32 := by
  rw [littleEndian_cons]
  rfl

theorem littleEndian_two (b0 b1 : Byte) :
    littleEndian [b0, b1] = (0 : BitVec 32) ^^^ b1.setWidth 32 <<< 8 ^^^ b0.setWidth 32 := by
  rw [littleEndian_cons, littleEndian_one, BitVec.shiftLeft_xor_distrib]
  rfl

theorem littleEndian_three (b0 b1 b2 : Byte) :
    littleEndian [b0, b1, b2]
      = (0 : BitVec 32) ^^^ b2.setWidth 32 <<< 16 ^^^ b1.setWidth 32 <<< 8 ^^^ b0.setWidth 32 := by
  rw [littleEndian_cons, littleEndian_two, BitVec.shiftLeft_xor_distrib,
    BitVec.shiftLeft_xor_distrib, ← BitVec.shiftLeft_add]
  rfl

theorem hashBlocks_tail (b : Byte) {tail : List Byte} (h : tail.length < 3) (h1 : BitVec 32) :
    hashBlocks (b :: tail) h1 = h1 ^^^ scramble (littleEndian (b :: tail)) := by
  rcases tail with _ | ⟨b1, _ | ⟨b2, _ | ⟨b3, tail⟩⟩⟩
  · conv_lhs => rw [hashBlocks.eq_def]
  · conv_lhs => rw [hashBlocks.eq_def]
  · conv_lhs => rw [hashBlocks.eq_def]
  · simp at h
    omega

theorem hashBlocks_nil (h1 : BitVec 32) : hashBlocks [] h1 = h1 := by
  conv_lhs => rw [hashBlocks.eq_def]

/-- The cases of the switch go from the last byte to the first. -/
theorem mixTail_eq_ok (h1 : BitVec 32) {n : Nat} (hbytes : m.bytes = front ++ (rest ++ beyond))
    (hfront : front.length = 4 * n) (hrest : rest.length < 4) (hlength : 4 * n < 2 ^ 31) :
    mixTail m (m.base + .ofNat 32 front.length) (.ofNat 32 (front.length + rest.length)) h1
      = .ok (hashBlocks rest h1) := by
  have hmask : BitVec.ofNat 32 (front.length + rest.length) &&& 3 = .ofNat 32 rest.length := by
    apply BitVec.eq_of_toNat_eq
    rw [BitVec.toNat_and, BitVec.toNat_ofNat, BitVec.toNat_ofNat]
    show _ &&& (2 ^ 2 - 1) = _
    rw [Nat.and_two_pow_sub_one_eq_mod]
    omega
  rw [mixTail, hmask]
  rcases rest with _ | ⟨b0, _ | ⟨b1, _ | ⟨b2, _ | ⟨b3, rest⟩⟩⟩⟩
  · rw [hashBlocks_nil]
    rfl
  · have h0 := read_first hbytes (by omega)
    rw [hashBlocks_tail b0 (by decide), littleEndian_one]
    exact except_bind_of_ok h0
  · have h0 := read_first hbytes (by omega)
    have h1 := read_front (j := 1) hbytes (by omega) rfl
    rw [hashBlocks_tail b0 (by simp), littleEndian_two]
    exact (except_bind_of_ok h1).trans (except_bind_of_ok h0)
  · have h0 := read_first hbytes (by omega)
    have h1 := read_front (j := 1) hbytes (by omega) rfl
    have h2 := read_front (j := 2) hbytes (by omega) rfl
    rw [hashBlocks_tail b0 (by simp), littleEndian_three]
    exact (except_bind_of_ok h2).trans ((except_bind_of_ok h1).trans (except_bind_of_ok h0))
  · simp at hrest
    omega

/-! ## The whole functions -/

theorem toNat_nblocks (hs : s.length < 2 ^ 32) : (size s / 4).toNat = s.length / 4 := by
  rw [BitVec.toNat_udiv, toNat_size hs]
  rfl

/-- What follows the loop, from where the loop came to. -/
theorem finishHash_eq_ok (base : Pointer) {h : BitVec 32} (hs : s.length < 2 ^ 31) :
    finishHash ⟨base, s ++ beyond⟩ base (size s) (some ⟨0, h⟩)
      = .ok (some (fmix32 (hashBlocks (s.drop (4 * (s.length / 4))) h ^^^ size s))) := by
  have hblocks : (size s / 4).toNat = s.length / 4 := toNat_nblocks (by omega)
  have hfront : (s.take (4 * (s.length / 4))).length = 4 * (s.length / 4) := by
    rw [List.length_take]
    omega
  have hmul : mulInt ((s.length / 4 : Nat) : Int) 4 = .ok ((s.length / 4 : Nat) * 4) :=
    mulInt_eq_ok (by omega) (by omega)
  have hbehind : BitVec.ofInt 32 ((s.length / 4 : Nat) * 4)
      = .ofNat 32 (s.take (4 * (s.length / 4))).length := by
    rw [hfront, ← BitVec.ofInt_natCast, Nat.mul_comm]
    rfl
  have hlength : size s
      = .ofNat 32 ((s.take (4 * (s.length / 4))).length
        + (s.drop (4 * (s.length / 4))).length) := by
    rw [← List.length_append, List.take_append_drop]
    rfl
  have hbytes : (⟨base, s ++ beyond⟩ : Region).bytes
      = s.take (4 * (s.length / 4)) ++ (s.drop (4 * (s.length / 4)) ++ beyond) := by
    rw [← List.append_assoc, List.take_append_drop]
  have htail := mixTail_eq_ok h hbytes hfront (by rw [List.length_drop]; omega) (by omega)
  rw [← hlength, ← hbehind] at htail
  rw [finishHash, hblocks, except_bind_of_ok hmul]
  exact except_bind_of_ok htail

/-- The hash of the input, whatever there is behind it; an input of two
gibibytes or more is too long for the product of the number of blocks. -/
theorem doHashMurmurhash3_settles (s beyond : List Byte) (base : Pointer) (seed : BitVec 32)
    (hbase : 4 ∣ base.toNat) (hs : s.length < 2 ^ 32) :
    Settles (fun turns => doHashMurmurhash3 turns ⟨base, s ++ beyond⟩ base (size s) seed)
      (if s.length < 2 ^ 31 then .ok (some (hashMurmurhash3 s seed))
        else .error (.undefined "*")) := by
  have hblocks := toNat_nblocks hs
  by_cases hlt : s.length < 2 ^ 31
  · have hmul : mulInt ((s.length / 4 : Nat) : Int) 4 = .ok ((s.length / 4 : Nat) * 4) :=
      mulInt_eq_ok (by omega) (by omega)
    have hbehind : base + BitVec.ofInt 32 ((s.length / 4 : Nat) * 4)
        = base + .ofNat 32 (([] : List Byte).length + 4 * (s.length / 4)) := by
      rw [← BitVec.ofInt_natCast, List.length_nil, Nat.zero_add, Nat.mul_comm]
      rfl
    have hbytes : (⟨base, s ++ beyond⟩ : Region).bytes = [] ++ (s ++ beyond) := rfl
    obtain ⟨h, hsettles, hhash⟩ :=
      settles_blocks (k := 0) seed (s.length / 4) hbase rfl hbytes (by omega)
        (by rw [List.length_nil]; omega) hbehind
    have hfinish : (.ok (some ⟨0, h⟩) >>= finishHash ⟨base, s ++ beyond⟩ base (size s))
        = .ok (some (hashMurmurhash3 s seed)) := by
      rw [except_bind_of_ok rfl, finishHash_eq_ok base hlt, hashMurmurhash3, hhash, size]
    rw [if_pos hlt, ← hfinish]
    refine (hsettles.map fun r => r >>= finishHash ⟨base, s ++ beyond⟩ base (size s)).congr
      fun turns => ?_
    rw [doHashMurmurhash3, hblocks]
    exact except_bind_of_ok hmul
  · have hmul : mulInt ((s.length / 4 : Nat) : Int) 4 = .error (.undefined "*") :=
      if_neg fun h => by omega
    rw [if_neg hlt]
    refine (settles_const _).congr fun turns => ?_
    rw [doHashMurmurhash3, hblocks]
    rw [hmul]
    rfl

theorem encode_wordBytes (value : BitVec 32) : ∃ count output,
    Base32.encode (wordBytes value) (List.replicate kSerialStrLen 0) = some (count, output) :=
  ⟨_, _, rfl⟩

/-- The encoder on a word and its buffer, with nothing behind either. -/
theorem settles_wordBytes (value : BitVec 32) :
    Settles (fun turns => Base32.Buffers.encodeBuffer turns (wordBytes value)
        (size (wordBytes value)) (List.replicate kSerialStrLen 0)
        (size (List.replicate kSerialStrLen (0 : Byte))))
      (.ok (some (Base32.Buffers.answer (List.replicate kSerialStrLen 0) []
        (Base32.encode (wordBytes value) (List.replicate kSerialStrLen 0))))) := by
  have hword : (wordBytes value).length < 2 ^ 32 := by simp [wordBytes]
  have hout : (List.replicate kSerialStrLen (0 : Byte)).length < 2 ^ 32 := by decide
  have h := @Base32.Buffers.encodeBuffer_settles (wordBytes value) [] _ [] hword hout
  rwa [List.append_nil, List.append_nil] at h

theorem formatSerialNumber_eq (s : List Byte) {count : Nat} {output : List Byte}
    (h : Base32.encode (wordBytes (hashMurmurhash3 s kSeed)) (List.replicate kSerialStrLen 0)
      = some (count, output)) : formatSerialNumber s = output := by
  rw [formatSerialNumber]
  simp only [wordBytes] at h
  simp only [h]

/-- The text of the serial number. -/
theorem formatSerialNumberAt_settles (s beyond : List Byte) (base : Pointer)
    (hbase : 4 ∣ base.toNat) (hs : s.length < 2 ^ 31) :
    Settles (fun turns => formatSerialNumberAt turns ⟨base, s ++ beyond⟩ base (size s))
      (.ok (some (formatSerialNumber s))) := by
  have hhash := doHashMurmurhash3_settles s beyond base kSeed hbase (by omega)
  rw [if_pos hs] at hhash
  obtain ⟨count, output, hencode⟩ := encode_wordBytes (hashMurmurhash3 s kSeed)
  have hsettles := settles_wordBytes (hashMurmurhash3 s kSeed)
  rw [hencode] at hsettles
  have hoption : ((.ok (some (Base32.Buffers.answer (List.replicate kSerialStrLen 0) []
      (some (count, output)))) : Except Fault _) >>= fun r => .ok (r.map (·.2)))
        = .ok (some (formatSerialNumber s)) := by
    rw [formatSerialNumber_eq s hencode]
    show Except.ok (some (output ++ [])) = _
    rw [List.append_nil]
  refine hhash.bind ?_
  rw [← hoption]
  exact hsettles.map fun r => r >>= fun r => .ok (r.map (·.2))

end Memory

theorem formatSerialNumberAt_settles_four :
    Settles (fun turns => formatSerialNumberAt turns ⟨0x2ffc0000, [1, 2, 3, 4] ++ [5]⟩ 0x2ffc0000 4)
      (.ok (some (formatSerialNumber [1, 2, 3, 4]))) :=
  formatSerialNumberAt_settles [1, 2, 3, 4] [5] 0x2ffc0000 (by decide) (by decide)

/-! ## Each step turns the words into one another -/

section Mixing

open Function Mixing

theorem bijective_rotl32 {r : Nat} (hr : r < 32) : Bijective (rotl32 · r) := bijective_rotate hr

theorem bijective_scramble : Bijective scramble :=
  (bijective_mul (d := 0x56ed309b) (by decide)).comp
    ((bijective_rotl32 (r := 15) (by decide)).comp (bijective_mul (d := 0xdee13bb1) (by decide)))

theorem bijective_fmix32 : Bijective fmix32 :=
  (bijective_xorShiftRight (k := 16) (by decide)).comp
    ((bijective_mul (d := 0x7ed1b41d) (by decide)).comp
      ((bijective_xorShiftRight (k := 13) (by decide)).comp
        ((bijective_mul (d := 0xa5cb9243) (by decide)).comp
          (bijective_xorShiftRight (k := 16) (by decide)))))

/-- What a block makes of the hash so far. -/
def mixBlock (h1 k1 : BitVec 32) : BitVec 32 := rotl32 (h1 ^^^ scramble k1) 13 * 5 + 0xe6546b64

theorem bijective_finishBlock :
    Bijective fun x : BitVec 32 => rotl32 x 13 * 5 + 0xe6546b64 :=
  (bijective_add 0xe6546b64).comp
    ((bijective_mul (d := 0xcccccccd) (by decide)).comp (bijective_rotl32 (r := 13) (by decide)))

theorem bijective_mixBlock_left (k1 : BitVec 32) : Bijective (mixBlock · k1) :=
  bijective_finishBlock.comp (bijective_xor (scramble k1))

theorem bijective_xor_scramble (h1 : BitVec 32) : Bijective fun k1 => h1 ^^^ scramble k1 := by
  have hcomm : (fun k1 => h1 ^^^ scramble k1) = (fun x => x ^^^ h1) ∘ scramble := by
    funext k1
    exact BitVec.xor_comm h1 (scramble k1)
  rw [hcomm]
  exact (bijective_xor h1).comp bijective_scramble

theorem bijective_mixBlock_right (h1 : BitVec 32) : Bijective (mixBlock h1) :=
  bijective_finishBlock.comp (bijective_xor_scramble h1)

/-- The input in front turns the seeds into one another. -/
theorem bijective_hashBlocks (s : List Byte) : Bijective (hashBlocks s) := by
  induction hn : s.length using Nat.strong_induction_on generalizing s with
  | _ n ih =>
      by_cases hlong : 4 ≤ s.length
      · obtain ⟨b0, b1, b2, b3, rest, rfl⟩ := exists_block hlong
        have hrest := ih rest.length (by simp at hn; omega) rest rfl
        have hblock : hashBlocks (b0 :: b1 :: b2 :: b3 :: rest)
            = hashBlocks rest ∘ (mixBlock · (littleEndian [b0, b1, b2, b3])) := by
          funext h1
          exact hashBlocks_block b0 b1 b2 b3 rest h1
        rw [hblock]
        exact hrest.comp (bijective_mixBlock_left _)
      · cases s with
        | nil =>
            have hid : hashBlocks [] = id := funext hashBlocks_nil
            rw [hid]
            exact bijective_id
        | cons b tail =>
            have htail : hashBlocks (b :: tail)
                = fun h1 => h1 ^^^ scramble (littleEndian (b :: tail)) := by
              funext h1
              exact hashBlocks_tail b (by simp at hlong; omega) h1
            rw [htail]
            exact bijective_xor _

theorem hashBlocks_append (before rest : List Byte) (hbefore : 4 ∣ before.length) (h1 : BitVec 32) :
    hashBlocks (before ++ rest) h1 = hashBlocks rest (hashBlocks before h1) := by
  induction hn : before.length using Nat.strong_induction_on generalizing before h1 with
  | _ n ih =>
      by_cases hlong : 4 ≤ before.length
      · obtain ⟨b0, b1, b2, b3, behind, rfl⟩ := exists_block hlong
        have hbehind : 4 ∣ behind.length := by
          simp at hbefore
          omega
        have happend := ih behind.length (by simp at hn; omega) behind hbehind
        rw [List.cons_append, List.cons_append, List.cons_append, List.cons_append,
          hashBlocks_block, hashBlocks_block, happend _ rfl]
      · have hnil : before = [] := by
          rw [← List.length_eq_zero_iff]
          omega
        rw [hnil, List.nil_append, hashBlocks_nil]

/-! ## A word and its bytes -/

theorem getLsbD_littleEndian (bytes : List Byte) {k : Nat} (hk : k < 32) :
    (littleEndian bytes).getLsbD k = (bytes.getD (k / 8) 0).getLsbD (k % 8) := by
  induction bytes generalizing k with
  | nil => simp [littleEndian]
  | cons b bytes ih =>
      rw [littleEndian_cons, BitVec.getLsbD_xor, BitVec.getLsbD_setWidth]
      by_cases hlow : k < 8
      · rw [Nat.div_eq_of_lt hlow, Nat.mod_eq_of_lt hlow]
        simp [hk, hlow]
      · obtain ⟨j, rfl⟩ := Nat.exists_eq_add_of_le' (Nat.le_of_not_lt hlow)
        have hhigh : b.getLsbD (j + 8) = false := BitVec.getLsbD_of_ge b _ (by omega)
        rw [hhigh, Bool.and_false, Bool.xor_false, Nat.add_div_right j (by decide),
          Nat.add_mod_right, List.getD_cons_succ, ← ih (by omega)]
        simp only [BitVec.getLsbD_shiftLeft, hk, hlow, Nat.add_sub_cancel, decide_true,
          decide_false, Bool.not_false, Bool.true_and]

theorem littleEndian_inj {x y : List Byte} (hlength : x.length = y.length) (hx : x.length ≤ 4)
    (h : littleEndian x = littleEndian y) : x = y := by
  refine List.ext_getElem hlength fun i hi hi' => ?_
  apply BitVec.eq_of_getLsbD_eq
  intro j hj
  have hbit : (littleEndian x).getLsbD (8 * i + j) = (littleEndian y).getLsbD (8 * i + j) :=
    congrArg (·.getLsbD (8 * i + j)) h
  rw [getLsbD_littleEndian x (by omega), getLsbD_littleEndian y (by omega),
    show (8 * i + j) / 8 = i by omega, show (8 * i + j) % 8 = j by omega,
    List.getD_eq_getElem x 0 hi, List.getD_eq_getElem y 0 hi'] at hbit
  exact hbit

@[simp] theorem length_wordBytes (value : BitVec 32) : (wordBytes value).length = 4 := rfl

theorem littleEndian_wordBytes (value : BitVec 32) : littleEndian (wordBytes value) = value := by
  apply BitVec.eq_of_getLsbD_eq
  intro k hk
  have hget : (wordBytes value).getD (k / 8) 0 = (value >>> (8 * (k / 8))).setWidth 8 := by
    rw [wordBytes, List.getD_eq_getElem _ _ (by simp; omega)]
    simp
  rw [getLsbD_littleEndian _ hk, hget, BitVec.getLsbD_setWidth, BitVec.getLsbD_ushiftRight,
    Nat.div_add_mod, decide_eq_true (Nat.mod_lt k (by decide)), Bool.true_and]

/-! ## Serial numbers that differ in one block -/

/-- The text for a hash: seven characters and zeros behind them. -/
def serialText (value : BitVec 32) : List Byte :=
  Base32.base32 (wordBytes value) ++ List.replicate 3 0

theorem formatSerialNumber_eq_serialText (s : List Byte) :
    formatSerialNumber s = serialText (hashMurmurhash3 s kSeed) := by
  have hlength : (Base32.base32 (wordBytes (hashMurmurhash3 s kSeed))).length = 7 := by
    rw [Base32.length_base32, length_wordBytes]
  have hchars : Base32.encodeChars (wordBytes (hashMurmurhash3 s kSeed)) kSerialStrLen
      = Base32.base32 (wordBytes (hashMurmurhash3 s kSeed)) := by
    rw [Base32.encodeChars_eq, List.take_of_length_le (by rw [hlength]; decide)]
  have hshort : ¬ 2 ^ 28 < (wordBytes (hashMurmurhash3 s kSeed)).length := by
    rw [length_wordBytes]
    decide
  have hencode : Base32.encode (wordBytes (hashMurmurhash3 s kSeed))
      (List.replicate kSerialStrLen 0) = some (7, serialText (hashMurmurhash3 s kSeed)) := by
    rw [Base32.encode, if_neg hshort, List.length_replicate, hchars]
    simp only [hlength]
    rfl
  exact formatSerialNumber_eq s hencode

theorem serialText_injective : Injective serialText := by
  intro v w h
  have hbase := List.append_cancel_right h
  have hdecode := congrArg (Base32.decode · 4) hbase
  simp only [Base32.decode_base32] at hdecode
  have hbytes : wordBytes v = wordBytes w := Option.some.inj hdecode
  rw [← littleEndian_wordBytes v, hbytes, littleEndian_wordBytes]

variable {before : List Byte}

/-- The hash by the word of one block. -/
theorem bijective_hash_word (hbefore : 4 ∣ before.length) (after : List Byte) (seed : BitVec 32) :
    Bijective fun w => hashMurmurhash3 (before ++ (wordBytes w ++ after)) seed := by
  have heq : (fun w => hashMurmurhash3 (before ++ (wordBytes w ++ after)) seed)
      = (fun h => fmix32 (h ^^^ .ofNat 32 (before.length + (4 + after.length)))) ∘
        hashBlocks after ∘ mixBlock (hashBlocks before seed) := by
    funext w
    have hblock : hashBlocks (wordBytes w ++ after) (hashBlocks before seed)
        = hashBlocks after (mixBlock (hashBlocks before seed) (littleEndian (wordBytes w))) :=
      hashBlocks_block _ _ _ _ after _
    rw [littleEndian_wordBytes] at hblock
    rw [hashMurmurhash3, hashBlocks_append _ _ hbefore, hblock, List.length_append,
      List.length_append, length_wordBytes]
    rfl
  rw [heq]
  exact (bijective_fmix32.comp (bijective_xor _)).comp
    ((bijective_hashBlocks after).comp (bijective_mixBlock_right _))

/-- The bytes behind the last block. -/
theorem hash_tail_inj {x y : List Byte} (hbefore : 4 ∣ before.length) (seed : BitVec 32)
    (hlength : x.length = y.length) (hx : x.length < 4)
    (h : hashMurmurhash3 (before ++ x) seed = hashMurmurhash3 (before ++ y) seed) : x = y := by
  rw [hashMurmurhash3, hashMurmurhash3, List.length_append, List.length_append, hlength] at h
  have hblocks := (bijective_xor _).injective (bijective_fmix32.injective h)
  rw [hashBlocks_append _ _ hbefore, hashBlocks_append _ _ hbefore] at hblocks
  cases x with
  | nil => exact (List.length_eq_zero_iff.mp hlength.symm).symm
  | cons b x =>
      cases y with
      | nil => cases hlength
      | cons c y =>
          rw [List.length_cons, List.length_cons] at hlength
          rw [List.length_cons] at hx
          rw [hashBlocks_tail b (by omega), hashBlocks_tail c (by omega)] at hblocks
          refine littleEndian_inj (by simp [hlength]) (by simp; omega) ?_
          exact (bijective_xor_scramble _).injective hblocks

/-- With the rest of the serial number the same, one aligned word comes to each
text exactly once, and fewer bytes at the end to different texts. -/
theorem serialNumbers_apart (hbefore : 4 ∣ before.length) :
    (∀ after value, ∃! w, formatSerialNumber (before ++ (wordBytes w ++ after))
      = serialText value) ∧
      ∀ x y : List Byte, x.length = y.length → x.length < 4 →
        (formatSerialNumber (before ++ x) = formatSerialNumber (before ++ y) ↔ x = y) := by
  refine ⟨fun after value => ?_, fun x y hlength hx => ⟨fun h => ?_, fun h => by rw [h]⟩⟩
  · obtain ⟨w, hw, hunique⟩ := (bijective_hash_word hbefore after kSeed).existsUnique value
    refine ⟨w, ?_, fun v hv => hunique v ?_⟩
    · show formatSerialNumber _ = _
      rw [formatSerialNumber_eq_serialText]
      exact congrArg serialText hw
    · have hv' : formatSerialNumber (before ++ (wordBytes v ++ after)) = serialText value := hv
      rw [formatSerialNumber_eq_serialText] at hv'
      exact serialText_injective hv'
  · rw [formatSerialNumber_eq_serialText, formatSerialNumber_eq_serialText] at h
    exact hash_tail_inj hbefore kSeed hlength hx (serialText_injective h)

theorem serialNumbers_apart_behind_four :
    (∀ after value, ∃! w, formatSerialNumber ([1, 2, 3, 4] ++ (wordBytes w ++ after))
      = serialText value) ∧
      ∀ x y : List Byte, x.length = y.length → x.length < 4 →
        (formatSerialNumber ([1, 2, 3, 4] ++ x) = formatSerialNumber ([1, 2, 3, 4] ++ y) ↔ x = y) :=
  serialNumbers_apart (by decide)

end Mixing

end UBoot
