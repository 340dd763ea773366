/-
# `Led.Current` — register values against the currents they set

`CalculateIref` is to find the largest register value whose current,
`CalculateCurrent` of it, is not above the one asked for.  It divides by the
resistance, and it narrows the quotient to eight bits with a conversion that
the language defines for values in range only.

`checkedIref` is `CalculateIref` with both made visible: it faults where the
language leaves the result open, and gives the value of `calculateIref`
everywhere else.
-/
import Mathlib.Order.Bounds.Basic
import ProgrammableLoad.Led.Config

namespace Cpp.Double

/-- `mA <= v` -/
def AtLeast (v : Double) (mA : ℚ) : Prop :=
  match v with
  | .num q => mA ≤ q
  | .inf negative => negative = false
  | .nan => False

instance (v : Double) (mA : ℚ) : Decidable (v.AtLeast mA) := by
  cases v <;> unfold AtLeast <;> infer_instance

/-- The value without its fraction. -/
def truncate (q : ℚ) : ℤ := if 0 ≤ q then ⌊q⌋ else ⌈q⌉

/-- A conversion to `uint8_t`, of which the language defines those of a value
that fits once its fraction is dropped. -/
def narrow : Double → Except Fault Byte
  | .num q =>
      if 0 ≤ truncate q ∧ truncate q ≤ 255 then
        .ok (.ofNat 8 (truncate q).toNat)
      else
        .error (.undefined "conversion to uint8_t")
  | _ => .error (.undefined "conversion to uint8_t")

end Cpp.Double

namespace Led.Pca9955

open Cpp Cbor Cbor.Util Program

/-! ## The two formulas -/

/-- `CalculateCurrent`, in mA. -/
def calculateCurrent (rext : BitVec 16) (irefx : Byte) : Except Fault ℚ :=
  if rext = 0 then
    .error (.undefined "division by zero")
  else
    .ok (900 / (rext.toNat : ℚ) * ((irefx.toNat : ℚ) / 4))

/-- `(current * rext) / 225.`, for a resistance that is not zero. -/
def quotient (rext : BitVec 16) : Double → Double
  | .num current => .num (current * rext.toNat / 225)
  | .inf negative => .inf negative
  | .nan => .nan

/-- `CalculateIref`, with the faults of the language. -/
def checkedIref (rext : BitVec 16) (current : Double) : Except Fault Byte := do
  let maxCurrent ← calculateCurrent rext 0xff
  if current.AtLeast maxCurrent then
    return 0xff
  else
    (quotient rext current).narrow

/-! ## The property and the condition -/

/-- The register values whose current is at most the one asked for. -/
def allowed (rext : BitVec 16) (current : Double) : Set Byte :=
  {irefx | ∃ mA, calculateCurrent rext irefx = .ok mA ∧ current.AtLeast mA}

/-- The largest register value that is allowed, 0 if none is. -/
def IsSetting (rext : BitVec 16) (current : Double) (irefx : Byte) : Prop :=
  IsGreatest (allowed rext current) irefx ∨ allowed rext current = ∅ ∧ irefx = 0

/-- The currents in an array of floats. -/
def currents (items : List Item) : List Double :=
  items.filterMap fun
    | .float _ current => some current
    | _ => none

/-- The registers of the channels follow the currents that are asked for. -/
structure Follows (rext : BitVec 16) (asked : List Double) (iref : List Byte) : Prop where
  defined : ∀ current ∈ asked, Defined (checkedIref rext current)
  setting : ∀ (i : Nat) current, asked[i]? = some current →
    ∃ irefx, iref[i]? = some irefx ∧ IsSetting rext current irefx
  rest : ∀ i : Nat, asked.length ≤ i → i < kNumChannels → iref[i]? = some 0

/-- The quotient of the current is a number above -1, or too large for a
register. -/
def Convertible (rext : BitVec 16) : Double → Prop
  | .num current => -225 / (rext.toNat : ℚ) < current
  | .inf negative => negative = false
  | .nan => False

section Registers

variable {rext : BitVec 16} {current : Double} {q : ℚ} {irefx : Byte}

/-! ## One channel -/

theorem truncate_nonneg_iff : 0 ≤ Double.truncate q ↔ -1 < q := by
  unfold Double.truncate
  split
  case isTrue h =>
    constructor
    · intro _
      linarith
    · intro _
      exact Int.floor_nonneg.mpr h
  case isFalse h =>
    have hlt : (-1 : ℤ) < ⌈q⌉ ↔ ((-1 : ℤ) : ℚ) < q := Int.lt_ceil
    rw [Int.cast_neg, Int.cast_one] at hlt
    rw [← hlt]
    omega

/-- Above -1 a value and its floor are converted alike. -/
theorem toNat_truncate : (Double.truncate q).toNat = ⌊q⌋.toNat := by
  unfold Double.truncate
  split
  case isTrue h => rfl
  case isFalse h =>
    have hceil : ⌈q⌉ ≤ 0 := Int.ceil_le.mpr (by exact_mod_cast (not_le.mp h).le)
    have hfloor : ⌊q⌋ ≤ ⌈q⌉ := Int.floor_le_ceil q
    omega

theorem cast_rext_pos (hrext : rext ≠ 0) : (0 : ℚ) < rext.toNat := by
  have hpos : 0 < rext.toNat := BitVec.toNat_pos_of_ne_zero hrext
  exact_mod_cast hpos

theorem calculateCurrent_of_ne_zero (hrext : rext ≠ 0) (irefx : Byte) :
    calculateCurrent rext irefx = .ok (900 / (rext.toNat : ℚ) * ((irefx.toNat : ℚ) / 4)) :=
  if_neg hrext

/-- The current of a register value against a current, as a comparison of the
register value with the quotient. -/
theorem calculateCurrent_le_iff (hrext : rext ≠ 0) (n : ℤ) :
    900 / (rext.toNat : ℚ) * ((n : ℚ) / 4) ≤ q ↔ n ≤ ⌊q * rext.toNat / 225⌋ := by
  have hpos := cast_rext_pos hrext
  have hform : 900 / (rext.toNat : ℚ) * ((n : ℚ) / 4) = n * 225 / rext.toNat := by
    ring
  rw [hform, Int.le_floor, div_le_iff₀ hpos, le_div_iff₀ (by norm_num : (0 : ℚ) < 225)]

theorem mem_allowed_iff (hrext : rext ≠ 0) :
    irefx ∈ allowed rext current ↔
      current.AtLeast (900 / (rext.toNat : ℚ) * ((irefx.toNat : ℚ) / 4)) := by
  constructor
  · rintro ⟨mA, hmA, hle⟩
    rw [calculateCurrent_of_ne_zero hrext] at hmA
    cases hmA
    exact hle
  · intro hle
    exact ⟨_, calculateCurrent_of_ne_zero hrext irefx, hle⟩

theorem mem_allowed_num_iff (hrext : rext ≠ 0) :
    irefx ∈ allowed rext (.num q) ↔ (irefx.toNat : ℤ) ≤ ⌊q * rext.toNat / 225⌋ := by
  rw [mem_allowed_iff hrext]
  exact calculateCurrent_le_iff hrext (irefx.toNat : ℤ)

theorem calculateIref_num (hrext : rext ≠ 0) :
    calculateIref rext (.num q) =
      if 255 ≤ ⌊q * rext.toNat / 225⌋ then 0xff
      else .ofNat 8 ⌊q * rext.toNat / 225⌋.toNat := by
  have hmax : 900 / (rext.toNat : ℚ) * (255 / 4) ≤ q ↔ 255 ≤ ⌊q * rext.toNat / 225⌋ :=
    calculateCurrent_le_iff hrext 255
  simp only [calculateIref, hmax, ne_eq, hrext, not_false_eq_true, true_and]

/-- Below the largest current the quotient rounded down is the register value,
from it on there is none larger. -/
theorem isSetting_calculateIref_num (hrext : rext ≠ 0) (q : ℚ) :
    IsSetting rext (.num q) (calculateIref rext (.num q)) := by
  rw [calculateIref_num hrext]
  generalize hn : ⌊q * rext.toNat / 225⌋ = n
  have hmem : ∀ irefx : Byte, irefx ∈ allowed rext (.num q) ↔ (irefx.toNat : ℤ) ≤ n := by
    intro irefx
    rw [mem_allowed_num_iff hrext, hn]
  split
  case isTrue hmax =>
    left
    constructor
    · exact (hmem _).mpr hmax
    · intro irefx _
      exact BitVec.le_def.mpr (Nat.le_of_lt_succ irefx.isLt)
  case isFalse hmax =>
    by_cases hneg : n < 0
    · right
      constructor
      · apply Set.eq_empty_of_forall_notMem
        intro irefx hirefx
        have hle := (hmem irefx).mp hirefx
        omega
      · rw [Int.toNat_of_nonpos hneg.le]
        rfl
    · have hval : (BitVec.ofNat 8 n.toNat).toNat = n.toNat := by
        rw [BitVec.toNat_ofNat]
        exact Nat.mod_eq_of_lt (by omega)
      left
      constructor
      · rw [hmem, hval]
        omega
      · intro irefx hirefx
        have hle := (hmem irefx).mp hirefx
        rw [BitVec.le_def, hval]
        omega

theorem isSetting_calculateIref (hrext : rext ≠ 0) (hconv : Convertible rext current) :
    IsSetting rext current (calculateIref rext current) := by
  cases current with
  | num q => exact isSetting_calculateIref_num hrext q
  | inf negative =>
      cases negative with
      | false =>
          left
          constructor
          · exact (mem_allowed_iff hrext).mpr rfl
          · intro irefx _
            exact BitVec.le_def.mpr (Nat.le_of_lt_succ irefx.isLt)
      | true => cases hconv
  | nan => cases hconv

/-! ## What the language defines -/

theorem convertible_num_iff (hrext : rext ≠ 0) :
    Convertible rext (.num q) ↔ -1 < q * rext.toNat / 225 := by
  have hpos := cast_rext_pos hrext
  show -225 / (rext.toNat : ℚ) < q ↔ _
  rw [div_lt_iff₀ hpos, lt_div_iff₀ (by norm_num : (0 : ℚ) < 225)]
  norm_num

theorem checkedIref_of_ne_zero (hrext : rext ≠ 0) (current : Double) :
    checkedIref rext current =
      if current.AtLeast (900 / (rext.toNat : ℚ) * (255 / 4)) then .ok 0xff
      else (quotient rext current).narrow := by
  have hmax : ((0xff : Byte).toNat : ℚ) = 255 := rfl
  rw [checkedIref, calculateCurrent_of_ne_zero hrext, hmax]
  rfl

theorem checkedIref_num (hrext : rext ≠ 0) :
    checkedIref rext (.num q) =
      if 255 ≤ ⌊q * rext.toNat / 225⌋ then .ok 0xff
      else Double.narrow (.num (q * rext.toNat / 225)) := by
  have hmax : (Double.num q).AtLeast (900 / (rext.toNat : ℚ) * (255 / 4)) ↔
      255 ≤ ⌊q * rext.toNat / 225⌋ := calculateCurrent_le_iff hrext 255
  rw [checkedIref_of_ne_zero hrext]
  simp only [hmax]
  rfl

/-- The conversion of a quotient that the clamp let through. -/
theorem narrow_num {x : ℚ} (hx : ¬ 255 ≤ ⌊x⌋) :
    Double.narrow (.num x) =
      if -1 < x then .ok (.ofNat 8 ⌊x⌋.toNat)
      else .error (.undefined "conversion to uint8_t") := by
  have htrunc : (Double.truncate x).toNat = ⌊x⌋.toNat := toNat_truncate
  have hle : Double.truncate x ≤ 255 := by omega
  simp only [Double.narrow, truncate_nonneg_iff, hle, and_true, htrunc]

theorem checkedIref_eq_ok (hrext : rext ≠ 0) (hconv : Convertible rext current) :
    checkedIref rext current = .ok (calculateIref rext current) := by
  cases current with
  | num q =>
      rw [checkedIref_num hrext, calculateIref_num hrext]
      split
      case isTrue hmax => rfl
      case isFalse hmax => rw [narrow_num hmax, if_pos ((convertible_num_iff hrext).mp hconv)]
  | inf negative =>
      cases negative with
      | false =>
          rw [checkedIref_of_ne_zero hrext]
          exact if_pos rfl
      | true => cases hconv
  | nan => cases hconv

theorem not_defined_checkedIref (hconv : ¬ Convertible rext current) (hrext : rext ≠ 0) :
    ¬ Defined (checkedIref rext current) := by
  cases current with
  | num q =>
      rw [convertible_num_iff hrext] at hconv
      have hmax : ¬ 255 ≤ ⌊q * rext.toNat / 225⌋ := by
        intro hmax
        have hle : ((255 : ℤ) : ℚ) ≤ q * rext.toNat / 225 := Int.le_floor.mp hmax
        norm_num at hle
        linarith
      rw [checkedIref_num hrext, if_neg hmax, narrow_num hmax, if_neg hconv]
      exact not_defined_undefined _
  | inf negative =>
      cases negative with
      | false => exact absurd rfl hconv
      | true =>
          rw [checkedIref_of_ne_zero hrext, if_neg nofun]
          exact not_defined_undefined _
  | nan =>
      rw [checkedIref_of_ne_zero hrext, if_neg nofun]
      exact not_defined_undefined _

theorem defined_checkedIref_iff :
    Defined (checkedIref rext current) ↔ rext ≠ 0 ∧ Convertible rext current := by
  constructor
  · intro hdef
    have hrext : rext ≠ 0 := by
      rintro rfl
      exact not_defined_undefined _ hdef
    refine ⟨hrext, ?_⟩
    by_contra hconv
    exact not_defined_checkedIref hconv hrext hdef
  · rintro ⟨hrext, hconv⟩
    exact Defined.of_ok (checkedIref_eq_ok hrext hconv)

/-- Where the language defines the computation, the target gives its value. -/
theorem calculateIref_of_checkedIref (h : checkedIref rext current = .ok irefx) :
    calculateIref rext current = irefx := by
  obtain ⟨hrext, hconv⟩ := defined_checkedIref_iff.mp (Defined.of_ok h)
  rw [checkedIref_eq_ok hrext hconv] at h
  cases h
  rfl

end Registers

/-! ## All channels -/

section Channels

variable {rext : BitVec 16} {items : List Item} {irefs : List Byte}

theorem readCurrents_eq_ok (hread : readCurrents rext items = .ok irefs) :
    irefs = (currents items).map (calculateIref rext) := by
  induction items generalizing irefs with
  | nil =>
      cases hread
      rfl
  | cons value items ih =>
      cases value with
      | float width current =>
          obtain ⟨_, hcurrent, hread⟩ := except_bind_eq_ok.mp hread
          cases hcurrent
          obtain ⟨irefs', hrest, hread⟩ := except_bind_eq_ok.mp hread
          cases hread
          rw [ih hrest]
          rfl
      | _ => cases hread

theorem length_currents (hread : readCurrents rext items = .ok irefs) :
    (currents items).length = irefs.length := by
  rw [readCurrents_eq_ok hread, List.length_map]

/-- What is stored for an array: the register values of its currents, and 0
for the channels behind its end. -/
theorem readConfig_iref {map : Item} {c : Config} {definite : Bool}
    (hread : readConfig map = .ok c) (hcurrent : map.Has "current" (.array definite items)) :
    c.iref = (currents items).map (calculateIref c.rext)
      ++ List.replicate (kNumChannels - (currents items).length) 0 := by
  obtain ⟨addr, _, hread⟩ := except_bind_eq_ok.mp hread
  obtain ⟨rext, _, hread⟩ := except_bind_eq_ok.mp hread
  obtain ⟨iref, hiref, hread⟩ := except_bind_eq_ok.mp hread
  obtain ⟨channels, _, hread⟩ := except_bind_eq_ok.mp hread
  cases hread
  obtain ⟨found, hfound, hiref⟩ := except_bind_eq_ok.mp hiref
  rw [cborMapGet_eq_ok_some_iff.mpr hcurrent] at hfound
  cases hfound
  obtain ⟨items', hitems, hiref⟩ := except_bind_eq_ok.mp hiref
  cases hitems
  by_cases hlong : kNumChannels < items.length
  · rw [if_pos hlong] at hiref
    cases hiref
  · rw [if_neg hlong] at hiref
    obtain ⟨irefs, hirefs, hiref⟩ := except_bind_eq_ok.mp hiref
    cases hiref
    rw [length_currents hirefs, ← readCurrents_eq_ok hirefs]

/-- Where every current is convertible the registers are set to them. -/
theorem follows_of_convertible {asked : List Double}
    (h : ∀ current ∈ asked, rext ≠ 0 ∧ Convertible rext current) :
    Follows rext asked (asked.map (calculateIref rext)
      ++ List.replicate (kNumChannels - asked.length) 0) := by
  constructor
  · intro current hmem
    exact defined_checkedIref_iff.mpr (h current hmem)
  · intro i current hi
    obtain ⟨hrext, hc⟩ := h current (List.mem_of_getElem? hi)
    refine ⟨calculateIref rext current, ?_, isSetting_calculateIref hrext hc⟩
    have hlt : i < (asked.map (calculateIref rext)).length := by
      rw [List.length_map]
      exact (List.getElem?_eq_some_iff.mp hi).1
    rw [List.getElem?_append_left hlt, List.getElem?_map, hi]
    rfl
  · intro i hlen hi
    have hle : (asked.map (calculateIref rext)).length ≤ i := by
      rw [List.length_map]
      exact hlen
    rw [List.getElem?_append_right hle, List.length_map]
    exact List.getElem?_replicate_of_lt (by omega)

/-- With registers from `calculateIref` it is up to the resistance and to each
single current. -/
theorem follows_iff (rext : BitVec 16) (asked : List Double) :
    Follows rext asked (asked.map (calculateIref rext)
        ++ List.replicate (kNumChannels - asked.length) 0)
      ↔ asked = [] ∨ rext ≠ 0 ∧ ∀ current ∈ asked, Convertible rext current := by
  constructor
  · intro hfollows
    have hdefined : ∀ current ∈ asked, rext ≠ 0 ∧ Convertible rext current :=
      fun current hmem => defined_checkedIref_iff.mp (hfollows.defined current hmem)
    cases asked with
    | nil => exact .inl rfl
    | cons current asked =>
        right
        constructor
        · exact (hdefined current List.mem_cons_self).1
        · intro current' hmem
          exact (hdefined current' hmem).2
  · intro hcond
    refine follows_of_convertible ?_
    intro current hmem
    rcases hcond with rfl | ⟨hrext, hconv⟩
    · cases hmem
    · exact ⟨hrext, hconv current hmem⟩

/-- The registers of an accepted configuration follow the currents it asks for
if there are none, or if the resistance is not zero and each of them is above
the one that the quotient takes to -1. -/
theorem readConfig_follows_iff {map : Item} {c : Config} {width : IntWidth} {v : Nat}
    {definite : Bool} (hread : readConfig map = .ok c) (hrext : map.Has "rext" (.uint width v))
    (hcurrent : map.Has "current" (.array definite items)) :
    Follows c.rext (currents items) c.iref ↔
      currents items = [] ∨
        BitVec.ofNat 16 v ≠ 0 ∧
          ∀ current ∈ currents items, Convertible (.ofNat 16 v) current := by
  obtain ⟨_, v', haccepts, _, hc⟩ := readConfig_eq_ok hread
  obtain ⟨width', hhas⟩ := haccepts.rext
  cases hrext.eq hhas
  rw [readConfig_iref hread hcurrent, ← hc]
  exact follows_iff c.rext (currents items)

/-- A controller with a 2 kΩ resistor, one channel of which is given a
current. -/
def oneChannel (current : Double) : Item :=
  .map true [
    (.ofString "addr", .uint .int8 0x5),
    (.ofString "rext", .uint .int16 2000),
    (.ofString "current", .array true [.float .single current]),
    (.ofString "map", .map true [])]

theorem oneChannel_accepted (current : Double) :
    ∃ c, readConfig (oneChannel current) = .ok c ∧ c.rext = 2000 ∧
      (oneChannel current).Has "rext" (.uint .int16 2000) ∧
      (oneChannel current).Has "current" (.array true [.float .single current]) :=
  ⟨_, rfl, rfl, cborMapGet_eq_ok_some_iff.mp rfl, cborMapGet_eq_ok_some_iff.mp rfl⟩

/-- Ten milliamperes are followed. -/
theorem readConfig_follows_tenMilliamperes :
    ∃ c, readConfig (oneChannel (.num 10)) = .ok c ∧ Follows c.rext [.num 10] c.iref := by
  obtain ⟨c, hread, _, hrext, hcurrent⟩ := oneChannel_accepted (.num 10)
  refine ⟨c, hread, (readConfig_follows_iff hread hrext hcurrent).mpr (.inr ⟨by decide, ?_⟩)⟩
  intro current hmem
  cases List.mem_singleton.mp hmem
  show -225 / ((2000 : ℕ) : ℚ) < 10
  norm_num

/-- A negative current is accepted, and its quotient is not a value of
`uint8_t`. -/
theorem readConfig_not_follows_negative :
    ∃ c, readConfig (oneChannel (.num (-1))) = .ok c ∧
      ¬ Defined (checkedIref c.rext (.num (-1))) ∧ ¬ Follows c.rext [.num (-1)] c.iref := by
  obtain ⟨c, hread, hrext, _⟩ := oneChannel_accepted (.num (-1))
  have hnot : ¬ Defined (checkedIref c.rext (.num (-1))) := by
    rw [hrext, defined_checkedIref_iff]
    rintro ⟨_, hconv⟩
    have hlt : -225 / ((2000 : ℕ) : ℚ) < -1 := hconv
    norm_num at hlt
  refine ⟨c, hread, hnot, ?_⟩
  intro hfollows
  exact hnot (hfollows.defined _ List.mem_cons_self)

end Channels

end Led.Pca9955
