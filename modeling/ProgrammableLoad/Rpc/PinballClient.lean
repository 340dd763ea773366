/-
# `Rpc.PinballClient` — setting indicators from the GUI

`PinballClient::setIndicatorState` makes one CBOR map of a list of changes,
with an entry for each change in order, and sends it to the indicator
endpoint.  The form for a single change makes a list of it.

The conversion of a color's components to single precision is taken to be
exact: a color stands for one whose components are numbers of that precision.
-/
import ProgrammableLoad.Rpc.ClientBase
import ProgrammableLoad.Rpc.Indicators
import ProgrammableLoad.Theory.LastWriter

namespace Rpc

open Cpp Cbor Cbor.Util Led Program LastWriter

/-- `IndicatorValue` -/
inductive IndicatorValue where
  | bool (value : Bool)
  | double (value : Double)
  | color (value : Color)

/-- `IndicatorChange`.  The client's enumeration of the indicators has the same
members as that of the LED manager. -/
abbrev IndicatorChange := Indicator × IndicatorValue

def kIndicatorNames : Indicator → String
  | .status => "status"
  | .trigger => "trigger"
  | .overheat => "overheat"
  | .overcurrent => "overcurrent"
  | .error => "error"
  | .btnModeCc => "modeCc"
  | .btnModeCv => "modeCv"
  | .btnModeCw => "modeCw"
  | .btnModeExt => "modeExt"
  | .btnLoadOn => "loadOn"
  | .btnMenu => "menu"

/-- The payload for a key. -/
def IndicatorValue.encode : IndicatorValue → Item
  | .double value => .float .double value
  | .color (cR, cG, cB) =>
      .array true [.float .single cR, .float .single cG, .float .single cB]
  | .bool value => Item.ofBool value

/-- The map of a list of changes. -/
def encodeChanges (changes : List IndicatorChange) : Item :=
  .map true (changes.map fun change =>
    (Item.ofString (kIndicatorNames change.1), change.2.encode))

def setIndicatorState (cbor : Libcbor) (accepts : List Byte → Bool)
    (changes : List IndicatorChange) : EStateM Fault ClientBase Unit := do
  match changes with
  | [] => pure ()
  | _ =>
      let _ ← ClientBase.sendPacket accepts kRpcEndpointIndicator
        (cbor.serialize (encodeChanges changes))

/-- `setIndicatorState`, for a single change. -/
def setSingleIndicatorState (cbor : Libcbor) (accepts : List Byte → Bool)
    (change : IndicatorChange) : EStateM Fault ClientBase Unit :=
  setIndicatorState cbor accepts [change]

/-! ## What the endpoint finds in the map -/

/-- The setting pinballd takes from a value. -/
def IndicatorValue.setting : IndicatorValue → Setting
  | .bool value => .brightness (if value then .num 1 else .num 0)
  | .double value => .brightness value.clamp01
  | .color value => .color value

theorem decodeValue_encode (key : String) (value : IndicatorValue) :
    decodeValue key value.encode = .ok value.setting := by
  cases value with
  | bool value => cases value <;> rfl
  | double value => rfl
  | color value => rfl

theorem ascii_kIndicatorNames_injective {i j : Indicator}
    (h : ascii (kIndicatorNames i) = ascii (kIndicatorNames j)) : i = j := by
  revert h
  cases i <;> cases j <;> decide

/-- Both tables give an indicator the same name. -/
theorem kIndicators_eq_names :
    ∀ entry ∈ kIndicators, entry.1 = kIndicatorNames entry.2 := by
  decide

/-- The search finds the first change of the indicator. -/
theorem cborMapGet_encodeChanges (changes : List IndicatorChange) (i : Indicator) :
    cborMapGet (encodeChanges changes) (kIndicatorNames i)
      = .ok ((firstOf i changes).map IndicatorValue.encode) := by
  show findKey (kIndicatorNames i) (changes.map _) = _
  induction changes with
  | nil => rfl
  | cons change changes ih =>
      rw [List.map_cons, findKey, firstOf_cons]
      show (if ascii (kIndicatorNames change.1) = ascii (kIndicatorNames i) then _ else _) = _
      by_cases h : change.1 = i
      · rw [if_pos (by rw [h]), if_pos h]
        rfl
      · rw [if_neg fun heq => h (ascii_kIndicatorNames_injective heq), if_neg h]
        exact ih

/-- The settings the endpoint makes of a list of changes, in the order of its
table. -/
def settings (table : IndicatorTable) (changes : List IndicatorChange) :
    List (Indicator × Setting) :=
  table.entries.filterMap fun entry =>
    (firstOf entry.2 changes).map fun value => (entry.2, value.setting)

theorem exists_kIndicators (i : Indicator) : ∃ entry ∈ kIndicators, entry.2 = i := by
  cases i <;> decide

theorem mem_settings_iff {table : IndicatorTable} {changes : List IndicatorChange}
    {i : Indicator} {setting : Setting} :
    (i, setting) ∈ settings table changes ↔
      ∃ value, firstOf i changes = some value ∧ value.setting = setting := by
  simp only [settings, List.mem_filterMap, Option.map_eq_some_iff, Prod.mk.injEq]
  constructor
  · rintro ⟨entry, _, value, hvalue, rfl, hsetting⟩
    exact ⟨value, hvalue, hsetting⟩
  · rintro ⟨value, hvalue, hsetting⟩
    obtain ⟨entry, hentry, rfl⟩ := exists_kIndicators i
    exact ⟨entry, table.perm.mem_iff.mpr hentry, value, hvalue, rfl, hsetting⟩

/-- The first change of an indicator makes its last setting. -/
theorem lastOf_settings (table : IndicatorTable) (changes : List IndicatorChange)
    (i : Indicator) :
    lastOf i (settings table changes) = (firstOf i changes).map IndicatorValue.setting := by
  cases hl : lastOf i (settings table changes) with
  | some setting =>
      obtain ⟨value, hvalue, rfl⟩ := mem_settings_iff.mp (mem_of_lastOf hl)
      rw [hvalue]
      rfl
  | none =>
      cases hf : firstOf i changes with
      | none => rfl
      | some value =>
          obtain ⟨setting, hsetting⟩ := exists_lastOf
            (mem_settings_iff.mpr ⟨value, hf, rfl⟩ : (i, value.setting) ∈ settings table changes)
          rw [hsetting] at hl
          cases hl

/-- A single change makes a single setting, in any order of the table. -/
theorem settings_single (table : IndicatorTable) (change : IndicatorChange) :
    settings table [change] = [(change.1, change.2.setting)] := by
  have hperm := table.perm.filterMap fun entry =>
    (firstOf entry.2 [change]).map fun value => (entry.2, value.setting)
  have hlist : (kIndicators.filterMap fun entry =>
      (firstOf entry.2 [change]).map fun value => (entry.2, value.setting))
        = [(change.1, change.2.setting)] := by
    obtain ⟨i, value⟩ := change
    cases i <;> rfl
  rw [hlist] at hperm
  exact List.perm_singleton.mp hperm

/-- One turn of the endpoint's loop on the map of a list of changes. -/
theorem updateIndicator_encodeChanges {entry : String × Indicator} (he : entry ∈ kIndicators)
    (changes : List IndicatorChange) :
    updateIndicator (encodeChanges changes) entry
      = match firstOf entry.2 changes with
        | none => pure ()
        | some value => LedManager.set entry.2 value.setting := by
  have hfound := cborMapGet_encodeChanges changes entry.2
  rw [← kIndicators_eq_names entry he] at hfound
  rw [updateIndicator, hfound]
  cases firstOf entry.2 changes with
  | none => rfl
  | some value =>
      show (MonadExcept.ofExcept (decodeValue entry.1 value.encode) >>= LedManager.set entry.2)
        = LedManager.set entry.2 value.setting
      rw [decodeValue_encode]
      rfl

theorem updateIndicators_encodeChanges (table : IndicatorTable)
    (changes : List IndicatorChange) :
    updateIndicators table (encodeChanges changes)
      = forM (settings table changes) fun x => LedManager.set x.1 x.2 := by
  have hmem : ∀ entry ∈ table.entries, entry ∈ kIndicators :=
    fun entry he => table.perm.mem_iff.mp he
  unfold updateIndicators settings
  generalize table.entries = entries at hmem
  induction entries with
  | nil => rfl
  | cons entry entries ih =>
      have htail := ih fun e he => hmem e (List.mem_cons_of_mem _ he)
      rw [List.forM_cons, htail, updateIndicator_encodeChanges (hmem entry List.mem_cons_self)]
      cases hf : firstOf entry.2 changes with
      | none =>
          rw [List.filterMap_cons_none (by rw [hf]; rfl)]
          rfl
      | some value =>
          rw [List.filterMap_cons_some (b := (entry.2, value.setting)) (by rw [hf]; rfl),
            List.forM_cons]

end Rpc
