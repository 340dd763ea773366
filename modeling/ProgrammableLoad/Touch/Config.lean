/-
# `Touch.Config` — the configuration of the touch controller

`Ft6336::readConfig` reads a CBOR map with the address of the controller,
whether it has an interrupt, the size of the panel and its rotation.  Numbers
of any width are accepted and converted to the types of the members, which
hold eight and sixteen bits.

`Accepts` says which maps are accepted, with the numbers they give, and
`Readable` on which none of the accessors is used outside its documentation.
-/
import ProgrammableLoad.Cbor.Lookup
import ProgrammableLoad.Touch.Ft6336

namespace Touch

open Cpp Cbor Cbor.Util Program

/-! ## Reading -/

/-- The members that `readConfig` sets. -/
structure Config where
  address : BitVec 8
  irqEnabled : Bool
  panel : Panel

/-- The interrupt config, `false` if there is none. -/
def readIrq (inConfig : Item) : Except Fault Bool := do
  match ← cborMapGet inConfig "irq" with
  | some irq =>
      if ← irq.floatCtrlIsCtrl then
        irq.getBool
      else
        throw (.thrown (.runtimeError "interrupt support not yet implemented"))
  | none => return false

/-- The panel size. -/
def readSize (inConfig : Item) : Except Fault (BitVec 16 × BitVec 16) := do
  match ← cborMapGet inConfig "size" with
  | some size =>
      let indefinite ← if size.isaArray then size.arrayIsIndefinite else pure true
      if indefinite then
        throw (.thrown (.runtimeError "invalid size (expected definite array)"))
      else
        let items ← size.arrayItems
        if items.length ≠ 2 then
          throw (.thrown (.runtimeError s!"invalid size array (got {items.length} elements)"))
        else
          let w ← cborReadUint (← size.arrayGet 0)
          let h ← cborReadUint (← size.arrayGet 1)
          return (.ofNat 16 w, .ofNat 16 h)
  | none => throw (.thrown (.runtimeError "missing panel size"))

/-- The rotation in quarter turns, a field of two bits. -/
def readRotation (inConfig : Item) : Except Fault (BitVec 2) := do
  match ← cborMapGet inConfig "rotation" with
  | some rot =>
      if !rot.isaUint then
        throw (.thrown (.runtimeError "invalid rotation key (expected uint)"))
      else
        return .ofNat 2 (((← cborReadUint rot) % 360 / 90) &&& 0x03)
  | none => return 0

def readConfig (inConfig : Item) : Except Fault Config := do
  let address ← requiredUint inConfig "addr" "missing or invalid address key"
  let irqEnabled ← readIrq inConfig
  let size ← readSize inConfig
  let rotation ← readRotation inConfig
  return ⟨.ofNat 8 address, irqEnabled, ⟨size, rotation⟩⟩

/-! ## What is accepted -/

/-- The configuration is accepted, with these numbers for the address and the
size. -/
structure Accepts (config : Item) (addr w h : Nat) : Prop where
  addr : ∃ width, config.Has "addr" (.uint width addr)
  irq : config.Holds "irq" fun value => value.isBool = true
  size : ∃ w₁ w₂, config.Has "size" (.array true [.uint w₁ w, .uint w₂ h])
  rotation : config.Holds "rotation" fun value => value.isaUint = true

/-- Every key that is looked up can be searched for, and a value for the
interrupt that is none of the floats is a truth value.  A key is looked up if
what was read before it was taken. -/
structure Readable (config : Item) : Prop where
  addr : config.Holds "addr" fun _ => True
  irq : (∃ addr width, config.Has "addr" (.uint width addr)) →
    config.Holds "irq" fun value =>
      value.isBool = true ∨ value.isFloat = true
  size : (∃ addr width, config.Has "addr" (.uint width addr)) →
    config.Holds "irq" (fun value => value.isBool = true) → config.Holds "size" fun _ => True
  rotation : (∃ addr width, config.Has "addr" (.uint width addr)) →
    config.Holds "irq" (fun value => value.isBool = true) →
    (∃ w₁ w w₂ h, config.Has "size" (.array true [.uint w₁ w, .uint w₂ h])) →
    config.Holds "rotation" fun _ => True

section Accepted

variable {config : Item} {c : Config}

theorem readIrq_returns_iff : (∃ irqEnabled, readIrq config = .ok irqEnabled) ↔
    config.Holds "irq" fun value => value.isBool = true := by
  refine (optional_returns_iff ⟨false, rfl⟩).trans ?_
  refine Item.holds_congr fun value => ?_
  rw [← Item.getBool_eq_ok_iff]
  constructor
  · rintro ⟨irqEnabled, h⟩
    obtain ⟨ctrl, hctrl, h⟩ := except_bind_eq_ok.mp h
    cases ctrl with
    | true => exact ⟨irqEnabled, h⟩
    | false => cases h
  · rintro ⟨irqEnabled, h⟩
    cases value with
    | ctrl n => exact ⟨irqEnabled, h⟩
    | _ => cases h

theorem readSize_eq_ok_iff {size : BitVec 16 × BitVec 16} : readSize config = .ok size ↔
    ∃ w₁ w w₂ h, config.Has "size" (.array true [.uint w₁ w, .uint w₂ h]) ∧
      size = (.ofNat 16 w, .ofNat 16 h) := by
  refine (required_eq_ok_iff (by nofun)).trans ?_
  constructor
  · rintro ⟨value, hvalue, hread⟩
    cases value with
    | array definite items =>
        cases definite with
        | false => cases hread
        | true =>
            rcases items with _ | ⟨x, _ | ⟨y, _ | ⟨z, rest⟩⟩⟩
            case cons.cons.nil =>
                replace hread : (do
                    let w ← cborReadUint x
                    let h ← cborReadUint y
                    return (.ofNat 16 w, .ofNat 16 h) : Except Fault _) = .ok size := hread
                obtain ⟨w, hw, hread⟩ := except_bind_eq_ok.mp hread
                obtain ⟨h, hh, hread⟩ := except_bind_eq_ok.mp hread
                cases hread
                obtain ⟨w₁, _, rfl⟩ := isaUint_iff.mp (cborReadUint_returns_iff.mp ⟨w, hw⟩)
                obtain ⟨w₂, _, rfl⟩ := isaUint_iff.mp (cborReadUint_returns_iff.mp ⟨h, hh⟩)
                cases hw
                cases hh
                exact ⟨w₁, w, w₂, h, hvalue, rfl⟩
            all_goals cases hread
    | _ => cases hread
  · rintro ⟨w₁, w, w₂, h, hvalue, rfl⟩
    exact ⟨_, hvalue, rfl⟩

theorem readRotation_returns_iff : (∃ rotation, readRotation config = .ok rotation) ↔
    config.Holds "rotation" fun value => value.isaUint = true := by
  refine (optional_returns_iff ⟨0, rfl⟩).trans ?_
  refine Item.holds_congr fun value => ?_
  cases value with
  | uint width v => exact iff_of_true ⟨_, rfl⟩ rfl
  | _ =>
      refine iff_of_false ?_ Bool.false_ne_true
      rintro ⟨rotation, h⟩
      cases h

theorem readConfig_eq_ok (hread : readConfig config = .ok c) : ∃ addr w h,
    Accepts config addr w h ∧ c.address = .ofNat 8 addr ∧
      c.panel.size = (.ofNat 16 w, .ofNat 16 h) := by
  obtain ⟨addr, haddr, hread⟩ := except_bind_eq_ok.mp hread
  obtain ⟨irqEnabled, hirq, hread⟩ := except_bind_eq_ok.mp hread
  obtain ⟨size, hsize, hread⟩ := except_bind_eq_ok.mp hread
  obtain ⟨rotation, hrotation, hread⟩ := except_bind_eq_ok.mp hread
  cases hread
  obtain ⟨w₁, w, w₂, h, hvalue, rfl⟩ := readSize_eq_ok_iff.mp hsize
  exact ⟨addr, w, h, ⟨requiredUint_eq_ok_iff.mp haddr, readIrq_returns_iff.mp ⟨_, hirq⟩,
    ⟨w₁, w₂, hvalue⟩, readRotation_returns_iff.mp ⟨_, hrotation⟩⟩, rfl, rfl⟩

theorem Accepts.readConfig_eq_ok {addr w h : Nat} (haccepts : Accepts config addr w h) :
    ∃ c, readConfig config = .ok c ∧ c.address = .ofNat 8 addr ∧
      c.panel.size = (.ofNat 16 w, .ofNat 16 h) := by
  obtain ⟨w₁, w₂, hsize⟩ := haccepts.size
  obtain ⟨irqEnabled, hirq⟩ := readIrq_returns_iff.mpr haccepts.irq
  obtain ⟨rotation, hrotation⟩ := readRotation_returns_iff.mpr haccepts.rotation
  have hsize' := readSize_eq_ok_iff.mpr ⟨w₁, w, w₂, h, hsize, rfl⟩
  refine ⟨⟨_, irqEnabled, ⟨_, rotation⟩⟩, ?_, rfl, rfl⟩
  refine except_bind_eq_ok.mpr ⟨addr, requiredUint_eq_ok_iff.mpr haccepts.addr, ?_⟩
  refine except_bind_eq_ok.mpr ⟨irqEnabled, hirq, except_bind_eq_ok.mpr ⟨_, hsize', ?_⟩⟩
  exact except_bind_eq_ok.mpr ⟨rotation, hrotation, rfl⟩

theorem defined_readIrq_iff : Defined (readIrq config) ↔
    config.Holds "irq" fun value =>
      value.isBool = true ∨ value.isFloat = true := by
  refine defined_lookup_iff (defined_pure _) fun value => ?_
  cases value with
  | ctrl n =>
      show Defined (Item.ctrl n).getBool ↔ _
      by_cases hbool : (Item.ctrl n).isBool = true
      · obtain ⟨irqEnabled, h⟩ := Item.getBool_eq_ok_iff.mpr hbool
        exact iff_of_true (Defined.of_ok h) (.inl hbool)
      · refine iff_of_false ?_ (by simpa [Item.isFloat] using hbool)
        rw [Item.getBool_ctrl_of_not hbool]
        exact not_defined_undefined _
  | float width v => exact iff_of_true (defined_throw _) (.inr rfl)
  | _ => exact iff_of_false (not_defined_undefined _) (by simp [Item.isBool, Item.isFloat])

theorem defined_readSize_iff : Defined (readSize config) ↔
    config.Holds "size" fun _ => True := by
  refine defined_lookup_iff (defined_throw _) fun value => iff_of_true ?_ trivial
  cases value with
  | array definite items =>
      cases definite with
      | false => exact defined_throw _
      | true =>
          rcases items with _ | ⟨x, _ | ⟨y, _ | ⟨z, rest⟩⟩⟩
          case cons.cons.nil =>
              show Defined (do
                  let w ← cborReadUint x
                  let h ← cborReadUint y
                  return (.ofNat 16 w, .ofNat 16 h) : Except Fault (BitVec 16 × BitVec 16))
              refine defined_bind_iff.mpr ⟨defined_cborReadUint x, fun w _ => ?_⟩
              exact defined_bind_iff.mpr ⟨defined_cborReadUint y, fun h _ => defined_pure _⟩
          all_goals exact defined_throw _
  | _ => exact defined_throw _

theorem defined_readRotation_iff : Defined (readRotation config) ↔
    config.Holds "rotation" fun _ => True := by
  refine defined_lookup_iff (defined_pure _) fun value => iff_of_true ?_ trivial
  cases value with
  | uint width v => exact defined_pure _
  | _ => exact defined_throw _

/-- Reading is defined exactly on the configurations that are readable. -/
theorem defined_readConfig_iff : Defined (readConfig config) ↔ Readable config := by
  have hall : Defined (readConfig config) ↔ config.Holds "addr" (fun _ => True) ∧
      ((∃ addr, requiredUint config "addr" "missing or invalid address key" = .ok addr) →
        Defined (readIrq config) ∧ ((∃ irqEnabled, readIrq config = .ok irqEnabled) →
          Defined (readSize config) ∧ ((∃ size, readSize config = .ok size) →
            Defined (readRotation config) ∧ ((∃ rotation, readRotation config = .ok rotation) →
              True)))) := by
    rw [← defined_requiredUint_iff]
    exact defined_bind_iff_of_forall fun _ => defined_bind_iff_of_forall fun _ =>
      defined_bind_iff_of_forall fun _ => defined_bind_iff_of_forall fun _ =>
        iff_of_true (defined_pure _) trivial
  have hsize : (∃ size, readSize config = .ok size) ↔
      ∃ w₁ w w₂ h, config.Has "size" (.array true [.uint w₁ w, .uint w₂ h]) := by
    constructor
    · rintro ⟨size, hread⟩
      obtain ⟨w₁, w, w₂, h, hvalue, _⟩ := readSize_eq_ok_iff.mp hread
      exact ⟨w₁, w, w₂, h, hvalue⟩
    · rintro ⟨w₁, w, w₂, h, hvalue⟩
      exact ⟨_, readSize_eq_ok_iff.mpr ⟨w₁, w, w₂, h, hvalue, rfl⟩⟩
  simp only [hall, requiredUint_eq_ok_iff, readIrq_returns_iff, hsize, defined_readIrq_iff,
    defined_readSize_iff, defined_readRotation_iff, implies_true, and_true]
  constructor
  · rintro ⟨haddr, hrest⟩
    exact ⟨haddr, fun h => (hrest h).1, fun h hirq => ((hrest h).2 hirq).1,
      fun h hirq hvalue => ((hrest h).2 hirq).2 hvalue⟩
  · rintro ⟨haddr, hirq, hsize, hrotation⟩
    exact ⟨haddr, fun h => ⟨hirq h, fun h' => ⟨hsize h h', hrotation h h'⟩⟩⟩

end Accepted

end Touch
