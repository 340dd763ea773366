/-
# `UBoot.ConfProm` — reading the configuration PROM at boot

`pl_read_prom` switches the bus multiplexer to the PROM, reads a serial number
and a MAC address into static variables and the environment, and switches the
multiplexer off again.  A static flag keeps it from doing so twice.

The switch-off is the last operation on every path that switched on, and its
result is the one that the function returns: it covers up that a read failed.
`reports_iff` says when that shows.

What the operations of the bus return, and what the reads leave in their
buffers, comes with each call of the function as its `Outcomes`; `bus` lists
the operations with what they returned.  The bytes of a word in memory are
those of a little-endian processor.
-/
import ProgrammableLoad.Idprom.Base32
import ProgrammableLoad.Theory.Runs

namespace UBoot

open Cpp Program

/-! ## The hash -/

/-- `rotl32` -/
def rotl32 (x : BitVec 32) (r : Nat) : BitVec 32 := x <<< r ||| x >>> (32 - r)

/-- `fmix32` -/
def fmix32 (h : BitVec 32) : BitVec 32 :=
  let h := h ^^^ h >>> 16
  let h := h * 0x85ebca6b
  let h := h ^^^ h >>> 13
  let h := h * 0xc2b2ae35
  h ^^^ h >>> 16

/-- What a word of the input is turned into before it goes into the hash. -/
def scramble (k1 : BitVec 32) : BitVec 32 := rotl32 (k1 * 0xcc9e2d51) 15 * 0x1b873593

/-- Up to four bytes as a word. -/
def littleEndian : List Byte → BitVec 32
  | [] => 0
  | byte :: bytes => littleEndian bytes <<< 8 ||| byte.setWidth 32

/-- The loop over the blocks of four bytes, and the rest behind them. -/
def hashBlocks : List Byte → BitVec 32 → BitVec 32
  | b0 :: b1 :: b2 :: b3 :: rest, h1 =>
      hashBlocks rest
        (rotl32 (h1 ^^^ scramble (littleEndian [b0, b1, b2, b3])) 13 * 5 + 0xe6546b64)
  | [], h1 => h1
  | tail, h1 => h1 ^^^ scramble (littleEndian tail)

/-- `do_hash_murmurhash3` -/
def hashMurmurhash3 (inData : List Byte) (seed : BitVec 32) : BitVec 32 :=
  fmix32 (hashBlocks inData seed ^^^ .ofNat 32 inData.length)

/-! ## The PROM -/

/-- Length of serial number -/
def kSerialLen : Nat := 16

/-- Human readable serial number string -/
def kSerialStrLen : Nat := 10

/-- Length of MAC address -/
def kMacAddrLen : Nat := 6

/-- The operations of the bus. -/
inductive BusOp where
  | getChip (address offsetLen : Nat)
  | write (chip offset : Nat) (bytes : List Byte)
  | read (chip offset length : Nat)
deriving DecidableEq

def BusOp.isRead : BusOp → Bool
  | .read .. => true
  | _ => false

/-- What the operations of one call return, zero or an error, and what the
reads leave in their buffers. -/
structure Outcomes where
  getMux : ℤ
  muxOn : ℤ
  getEeprom : ℤ
  readSerial : ℤ
  serialBytes : Vector Byte kSerialLen
  envSet : ℤ
  readMac : ℤ
  macBytes : Vector Byte kMacAddrLen
  envSetEnetaddr : ℤ
  muxOff : ℤ

/-- The static variables; the variables that were set in the environment, and
the operations of the bus with what they returned, oldest first. -/
structure Prom where
  promRead : Bool
  deviceSerial : List Byte
  macAddress : List Byte
  env : List (String × List Byte)
  bus : List (BusOp × ℤ)

/-- The variables at boot. -/
def Prom.booted : Prom :=
  ⟨false, List.replicate kSerialStrLen 0, List.replicate kMacAddrLen 0, [], []⟩

/-- The seed of the hash, the multi-character constant 'PLSN'. -/
def kSeed : BitVec 32 := 0x504c534e

/-- What `FormatSerialNumber` stores. -/
def formatSerialNumber (snBytes : List Byte) : List Byte :=
  let value := hashMurmurhash3 snBytes kSeed
  let bytes := (List.range 4).map fun i => (value >>> (8 * i)).setWidth 8
  match Base32.encode bytes (List.replicate kSerialStrLen 0) with
  | some (_, output) => output
  | none => List.replicate kSerialStrLen 0

namespace Prom

/-- An operation of the bus that returns `ret`. -/
def i2c (op : BusOp) (ret : ℤ) : EStateM Fault Prom ℤ := do
  modify fun s => { s with bus := s.bus ++ [(op, ret)] }
  return ret

def envSet (name : String) (value : Prom → List Byte) (ret : ℤ) : EStateM Fault Prom ℤ := do
  modify fun s => { s with env := s.env ++ [(name, value s)] }
  return ret

def muxOn : BusOp := .write 0x70 0x70 [1 <<< 1]

def muxOff : BusOp := .write 0x70 0x70 [0]

/-- The part between the two switches of the multiplexer, up to the label
`beach`; it ends with the value that `ret` has there. -/
def readEeprom (x : Outcomes) : EStateM Fault Prom ℤ := do
  let ret ← i2c (.getChip 0x58 1) x.getEeprom
  if ret ≠ 0 then
    return ret
  else do
    let ret ← i2c (.read 0x58 0x80 kSerialLen) x.readSerial
    if ret ≠ 0 then
      return ret
    else do
      modify fun s => { s with deviceSerial := formatSerialNumber x.serialBytes.toList }
      let _ ← envSet "serial#" (·.deviceSerial) x.envSet
      let ret ← i2c (.read 0x58 0x9a kMacAddrLen) x.readMac
      modify fun s => { s with macAddress := x.macBytes.toList }
      if ret ≠ 0 then
        return ret
      else do
        let ret ← envSet "ethaddr" (·.macAddress) x.envSetEnetaddr
        modify fun s => { s with promRead := true }
        return ret

/-- `pl_read_prom` -/
def plReadProm (x : Outcomes) : EStateM Fault Prom ℤ := do
  if (← get).promRead then
    return 0
  else do
    let ret ← i2c (.getChip 0x70 0) x.getMux
    if ret ≠ 0 then
      return ret
    else do
      let ret ← i2c muxOn x.muxOn
      if ret ≠ 0 then
        return ret
      else do
        let _ ← readEeprom x
        -- the result of the part above is overwritten
        let ret ← i2c muxOff x.muxOff
        return ret

/-! ## The property and the condition -/

/-- The three operations in the middle succeed. -/
def AllRead (x : Outcomes) : Prop := x.getEeprom = 0 ∧ x.readSerial = 0 ∧ x.readMac = 0

/-- What a call that starts with `s` and ends with `t` and `ret` has to report. -/
structure Reports (s : Prom) (x : Outcomes) (ret : ℤ) (t : Prom) : Prop where
  zero : ret = 0 → t.promRead = true
  promRead : t.promRead = true → s.promRead = true ∨ AllRead x ∧
    t.deviceSerial = formatSerialNumber x.serialBytes.toList ∧ t.macAddress = x.macBytes.toList
  bus : ∃ new, t.bus = s.bus ++ new ∧
    (∀ op r, (op, r) ∈ new → op.isRead = true → r ≠ 0 → ret ≠ 0) ∧
    ((muxOn, 0) ∈ new → ∃ r, new.getLast? = some (muxOff, r))
  again : s.promRead = true → ret = 0 ∧ t = s

/-- Nothing failed between the switches of the multiplexer, or the failure is
not covered up. -/
def Unmasked (s : Prom) (x : Outcomes) : Prop :=
  s.promRead = true ∨ x.getMux ≠ 0 ∨ x.muxOn ≠ 0 ∨ AllRead x ∨ x.muxOff ≠ 0

/-! ## One call -/

section Call

variable {s t : Prom} {x : Outcomes} {ret : ℤ}

/-- The operations between the switches, if all but the last succeed. -/
def eepromOps (x : Outcomes) : List (BusOp × ℤ) :=
  [(.getChip 0x58 1, x.getEeprom), (.read 0x58 0x80 kSerialLen, x.readSerial),
    (.read 0x58 0x9a kMacAddrLen, x.readMac)]

/-- What the part between the switches does. -/
structure EepromRead (s : Prom) (x : Outcomes) (t : Prom) (new : List (BusOp × ℤ)) : Prop where
  bus : t.bus = s.bus ++ new
  promRead : t.promRead = true ↔ s.promRead = true ∨ AllRead x
  failed : ∀ op r, (op, r) ∈ new → op.isRead = true → r ≠ 0 → ¬ AllRead x
  stored : AllRead x →
    t.deviceSerial = formatSerialNumber x.serialBytes.toList ∧ t.macAddress = x.macBytes.toList

/-- The variables after some more operations of the bus. -/
def logged (s : Prom) (new : List (BusOp × ℤ)) : Prom := { s with bus := s.bus ++ new }

theorem i2c_run (op : BusOp) (ret : ℤ) (s : Prom) :
    (i2c op ret).run s = .ok ret (s.logged [(op, ret)]) := rfl

theorem logged_logged (s : Prom) (new new' : List (BusOp × ℤ)) :
    (s.logged new).logged new' = s.logged (new ++ new') := by
  simp only [logged, List.append_assoc]

/-- Up to the first operation that fails, the flag stays as it is. -/
theorem EepromRead.of_not {new : List (BusOp × ℤ)} (h : ¬ AllRead x)
    (hbus : t.bus = s.bus ++ new) (hread : t.promRead = s.promRead) : EepromRead s x t new where
  bus := hbus
  promRead := by
    rw [hread]
    exact (or_iff_left h).symm
  failed _ _ _ _ _ := h
  stored hall := absurd hall h

/-- The variables with the serial number, once that was read. -/
def withSerial (s : Prom) (x : Outcomes) : Prom := { s with
  deviceSerial := formatSerialNumber x.serialBytes.toList
  env := s.env ++ [("serial#", formatSerialNumber x.serialBytes.toList)] }

/-- The variables with the MAC address as well. -/
def withMac (s : Prom) (x : Outcomes) : Prom := { s with
  macAddress := x.macBytes.toList
  env := s.env ++ [("ethaddr", x.macBytes.toList)]
  promRead := true }

theorem readEeprom_of_getEeprom (h : x.getEeprom ≠ 0) :
    (readEeprom x).run s = .ok x.getEeprom (s.logged [(.getChip 0x58 1, x.getEeprom)]) := by
  rw [readEeprom, run_bind_of_ok (i2c_run _ _ _), if_pos h]
  rfl

theorem readEeprom_of_readSerial (hget : x.getEeprom = 0) (h : x.readSerial ≠ 0) :
    (readEeprom x).run s = .ok x.readSerial (s.logged
      [(.getChip 0x58 1, x.getEeprom), (.read 0x58 0x80 kSerialLen, x.readSerial)]) := by
  rw [readEeprom, run_bind_of_ok (i2c_run _ _ _), if_neg (not_not.mpr hget),
    run_bind_of_ok (i2c_run _ _ _), logged_logged, if_pos h]
  rfl

theorem readEeprom_of_readMac (hget : x.getEeprom = 0) (hserial : x.readSerial = 0)
    (h : x.readMac ≠ 0) :
    (readEeprom x).run s = .ok x.readMac
      { (s.logged (eepromOps x)).withSerial x with macAddress := x.macBytes.toList } := by
  rw [readEeprom, run_bind_of_ok (i2c_run _ _ _), if_neg (not_not.mpr hget),
    run_bind_of_ok (i2c_run _ _ _), logged_logged, if_neg (not_not.mpr hserial)]
  simp [envSet, i2c, h, logged, eepromOps, withSerial]

theorem readEeprom_of_allRead (h : AllRead x) :
    (readEeprom x).run s
      = .ok x.envSetEnetaddr (((s.logged (eepromOps x)).withSerial x).withMac x) := by
  obtain ⟨hget, hserial, hmac⟩ := h
  rw [readEeprom, run_bind_of_ok (i2c_run _ _ _), if_neg (not_not.mpr hget),
    run_bind_of_ok (i2c_run _ _ _), logged_logged, if_neg (not_not.mpr hserial)]
  simp [envSet, i2c, hmac, logged, eepromOps, withSerial, withMac]

theorem EepromRead.of_allRead (h : AllRead x) :
    EepromRead s x (((s.logged (eepromOps x)).withSerial x).withMac x) (eepromOps x) where
  bus := rfl
  promRead := iff_of_true rfl (.inr h)
  failed := by
    obtain ⟨hget, hserial, hmac⟩ := h
    intro op r hmem _ hr
    rw [eepromOps, hget, hserial, hmac] at hmem
    simp only [List.mem_cons, Prod.mk.injEq, List.not_mem_nil, or_false] at hmem
    omega
  stored _ := ⟨rfl, rfl⟩

theorem readEeprom_run (s : Prom) (x : Outcomes) :
    ∃ r t new, (readEeprom x).run s = .ok r t ∧ EepromRead s x t new := by
  by_cases hget : x.getEeprom = 0
  case neg => exact ⟨_, _, _, readEeprom_of_getEeprom hget, .of_not (fun h => hget h.1) rfl rfl⟩
  by_cases hserial : x.readSerial = 0
  case neg =>
    exact ⟨_, _, _, readEeprom_of_readSerial hget hserial,
      .of_not (fun h => hserial h.2.1) rfl rfl⟩
  by_cases hmac : x.readMac = 0
  case neg =>
    exact ⟨_, _, _, readEeprom_of_readMac hget hserial hmac,
      .of_not (fun h => hmac h.2.2) rfl rfl⟩
  exact ⟨_, _, _, readEeprom_of_allRead ⟨hget, hserial, hmac⟩, .of_allRead ⟨hget, hserial, hmac⟩⟩

theorem plReadProm_of_promRead (x : Outcomes) (h : s.promRead = true) :
    (plReadProm x).run s = .ok 0 s := by
  rw [plReadProm, run_get_bind, if_pos h]
  rfl

theorem plReadProm_of_getMux (h : ¬ s.promRead = true) (hmux : x.getMux ≠ 0) :
    (plReadProm x).run s = .ok x.getMux (s.logged [(.getChip 0x70 0, x.getMux)]) := by
  rw [plReadProm, run_get_bind, if_neg h, run_bind_of_ok (i2c_run _ _ _), if_pos hmux]
  rfl

theorem plReadProm_of_muxOn (h : ¬ s.promRead = true) (hmux : x.getMux = 0)
    (hon : x.muxOn ≠ 0) :
    (plReadProm x).run s
      = .ok x.muxOn (s.logged [(.getChip 0x70 0, x.getMux), (muxOn, x.muxOn)]) := by
  rw [plReadProm, run_get_bind, if_neg h, run_bind_of_ok (i2c_run _ _ _),
    if_neg (not_not.mpr hmux), run_bind_of_ok (i2c_run _ _ _), logged_logged, if_pos hon]
  rfl

/-- The path that switches the multiplexer: the result is the one of the
switch-off. -/
theorem plReadProm_of_switched (h : ¬ s.promRead = true) (hmux : x.getMux = 0)
    (hon : x.muxOn = 0) :
    ∃ u new, (plReadProm x).run s = .ok x.muxOff (u.logged [(muxOff, x.muxOff)]) ∧
      EepromRead (s.logged [(.getChip 0x70 0, x.getMux), (muxOn, x.muxOn)]) x u new := by
  obtain ⟨r, u, new, hrun, hread⟩ :=
    readEeprom_run (s.logged [(.getChip 0x70 0, x.getMux), (muxOn, x.muxOn)]) x
  refine ⟨u, new, ?_, hread⟩
  rw [plReadProm, run_get_bind, if_neg h, run_bind_of_ok (i2c_run _ _ _),
    if_neg (not_not.mpr hmux), run_bind_of_ok (i2c_run _ _ _), logged_logged,
    if_neg (not_not.mpr hon)]
  exact (run_bind_of_ok hrun).trans (i2c_run _ _ _)

/-! ## Reports -/

theorem reports_again (x : Outcomes) (h : s.promRead = true) : Reports s x 0 s where
  zero _ := h
  promRead _ := .inl h
  bus := ⟨[], (List.append_nil _).symm, nofun, nofun⟩
  again _ := ⟨rfl, rfl⟩

/-- A return before the multiplexer was switched. -/
theorem reports_of_error {new : List (BusOp × ℤ)} (h : ¬ s.promRead = true) (hret : ret ≠ 0)
    (hon : (muxOn, 0) ∉ new) : Reports s x ret (s.logged new) where
  zero hzero := absurd hzero hret
  promRead hread := absurd hread h
  bus := ⟨new, rfl, fun _ _ _ _ _ => hret, fun hmem => absurd hmem hon⟩
  again hread := absurd hread h

/-- All operations of a call that switched the multiplexer. -/
def switchedOps (x : Outcomes) (new : List (BusOp × ℤ)) : List (BusOp × ℤ) :=
  [(.getChip 0x70 0, x.getMux), (muxOn, x.muxOn)] ++ new ++ [(muxOff, x.muxOff)]

/-- The switches are no reads. -/
theorem mem_of_isRead {new : List (BusOp × ℤ)} {op : BusOp} {r : ℤ}
    (h : (op, r) ∈ switchedOps x new) (hop : op.isRead = true) : (op, r) ∈ new := by
  rcases List.mem_append.mp h with hmem | hmem
  · rcases List.mem_append.mp hmem with hmem | hmem
    · simp only [List.mem_cons, Prod.mk.injEq, List.not_mem_nil, or_false] at hmem
      rcases hmem with ⟨rfl, _⟩ | ⟨rfl, _⟩ <;> cases hop
    · exact hmem
  · simp only [List.mem_singleton, Prod.mk.injEq] at hmem
    rw [hmem.1] at hop
    cases hop

/-- Behind the switch-off: with the flag not set before, either it is now or
the result has to be the switch-off's error. -/
theorem reports_switched_iff {u : Prom} {new : List (BusOp × ℤ)} (h : ¬ s.promRead = true)
    (hread : EepromRead (s.logged [(.getChip 0x70 0, x.getMux), (muxOn, x.muxOn)]) x u new) :
    Reports s x x.muxOff (u.logged [(muxOff, x.muxOff)]) ↔ AllRead x ∨ x.muxOff ≠ 0 := by
  have hflag : u.promRead = true ↔ AllRead x := hread.promRead.trans (or_iff_right h)
  constructor
  · intro hreports
    by_cases hoff : x.muxOff = 0
    · exact .inl (hflag.mp (hreports.zero hoff))
    · exact .inr hoff
  · intro hcond
    constructor
    · intro hzero
      exact hflag.mpr (hcond.resolve_right (not_not.mpr hzero))
    · intro hset
      have hall := hflag.mp hset
      exact .inr ⟨hall, hread.stored hall⟩
    · refine ⟨switchedOps x new, ?_, ?_, ?_⟩
      · show u.bus ++ _ = _
        rw [hread.bus]
        simp [logged, switchedOps]
      · intro op r hmem hop hr
        exact hcond.resolve_left (hread.failed op r (mem_of_isRead hmem hop) hop hr)
      · intro _
        exact ⟨x.muxOff, List.getLast?_concat⟩
    · intro hset
      exact absurd hset h

theorem reports_iff_unmasked (hrun : (plReadProm x).run s = .ok ret t) :
    Reports s x ret t ↔ Unmasked s x := by
  by_cases h : s.promRead = true
  · rw [plReadProm_of_promRead x h] at hrun
    cases hrun
    exact iff_of_true (reports_again x h) (.inl h)
  by_cases hmux : x.getMux = 0
  case neg =>
    rw [plReadProm_of_getMux h hmux] at hrun
    cases hrun
    exact iff_of_true (reports_of_error h hmux (by simp [muxOn])) (.inr (.inl hmux))
  by_cases hon : x.muxOn = 0
  case neg =>
    rw [plReadProm_of_muxOn h hmux hon] at hrun
    cases hrun
    refine iff_of_true (reports_of_error h hon ?_) (.inr (.inr (.inl hon)))
    simp [muxOn, Ne.symm hon]
  obtain ⟨u, new, hswitched, hread⟩ := plReadProm_of_switched h hmux hon
  rw [hswitched] at hrun
  cases hrun
  rw [reports_switched_iff h hread]
  constructor
  · intro hcond
    exact .inr (.inr (.inr hcond))
  · rintro (hset | hmux' | hon' | hcond)
    · exact absurd hset h
    · exact absurd hmux hmux'
    · exact absurd hon hon'
    · exact hcond

end Call

/-! ## Any sequence of calls -/

/-- All calls report what they have to if and only if none covers up a
failure. -/
theorem reports_iff (s : Prom) (calls : List Outcomes) :
    Along plReadProm Reports s calls ↔
      Along plReadProm (fun s x _ _ => Unmasked s x) s calls := by
  refine along_congr (I := fun _ => True) ?_ ?_ trivial
  · intro _ _ _ _ _ _
    trivial
  · intro s x ret t _ hrun
    exact reports_iff_unmasked hrun

/-- The serial number cannot be read, everything else works. -/
def serialFails : Outcomes where
  getMux := 0
  muxOn := 0
  getEeprom := 0
  readSerial := -121
  serialBytes := Vector.replicate _ 0
  envSet := 0
  readMac := 0
  macBytes := Vector.replicate _ 0
  envSetEnetaddr := 0
  muxOff := 0

/-- The first call at boot returns success, with nothing read. -/
theorem serialFails_not_reported : ¬ Along plReadProm Reports booted [serialFails] := by
  rintro ⟨ret, t, hrun, hreports, _⟩
  rw [reports_iff_unmasked hrun] at hreports
  rcases hreports with h | h | h | ⟨_, h, _⟩ | h
  · cases h
  · exact h rfl
  · exact h rfl
  · exact absurd h (by decide)
  · exact h rfl

end Prom

end UBoot
