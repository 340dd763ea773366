/-
# `Rpc.Indicators` — the indicator endpoint of pinballd

`Client::updateIndicators` goes through its table of names, an unordered map
and so in an order of its own, looks each name up in the payload and sets the
indicator to the value found.  It works on the LED manager alone.

`updateIndicators_returns_iff` says when it returns: the lookups are defined,
every value found is of a kind the indicator can be set to, and the register
writes these values need succeed.
-/
import ProgrammableLoad.Cbor.Util
import ProgrammableLoad.Led.Manager

namespace Rpc

open Cpp Cbor Cbor.Util Led Program

/-! ## The endpoint -/

/-- The mapping from key names to their indicators. -/
def kIndicators : List (String × Indicator) :=
  [("status", .status), ("trigger", .trigger), ("overheat", .overheat),
    ("overcurrent", .overcurrent), ("error", .error), ("modeCc", .btnModeCc),
    ("modeCv", .btnModeCv), ("modeCw", .btnModeCw), ("modeExt", .btnModeExt),
    ("loadOn", .btnLoadOn), ("menu", .btnMenu)]

/-- The mapping in the order in which a loop over it visits the entries. -/
structure IndicatorTable where
  entries : List (String × Indicator)
  perm : entries.Perm kIndicators

/-- The order in which the source lists them. -/
def IndicatorTable.listed : IndicatorTable := ⟨kIndicators, .refl _⟩

/-- The color in an array: the components it has, and zero for the others. -/
def decodeColor (value : Item) : Except Fault Color := do
  match (← value.arrayItems).length with
  | 3 => do
      let c2 ← (← value.arrayGet 2).floatGetFloat
      let c1 ← (← value.arrayGet 1).floatGetFloat
      let c0 ← (← value.arrayGet 0).floatGetFloat
      return (c0, c1, c2)
  | 2 => do
      let c1 ← (← value.arrayGet 1).floatGetFloat
      let c0 ← (← value.arrayGet 0).floatGetFloat
      return (c0, c1, .num 0)
  | 1 => do
      let c0 ← (← value.arrayGet 0).floatGetFloat
      return (c0, .num 0, .num 0)
  | numEntries =>
      throw (.thrown (.runtimeError s!"invalid color ({numEntries} entries)"))

/-- What the value of a key sets the indicator to. -/
def decodeValue (key : String) (value : Item) : Except Fault Setting := do
  if value.isaFloatCtrl then
    if (← value.floatCtrlIsCtrl) && value.isBool then
      return .brightness (if ← value.getBool then .num 1 else .num 0)
    else if value.isFloat then
      return .brightness (← value.floatGetFloat).clamp01
    else
      throw (.thrown (.runtimeError "unsupported float-type value"))
  else if value.isaArray then
    return .color (← decodeColor value)
  else
    throw (.thrown (.runtimeError
      s!"invalid value for key '{key}', expected bool, float, or array"))

/-- One turn of the loop. -/
def updateIndicator (item : Item) (entry : String × Indicator) :
    EStateM Fault LedManager Unit := do
  match ← MonadExcept.ofExcept (cborMapGet item entry.1) with
  | none => pure ()
  | some value =>
      LedManager.set entry.2 (← MonadExcept.ofExcept (decodeValue entry.1 value))

def updateIndicators (table : IndicatorTable) (item : Item) :
    EStateM Fault LedManager Unit :=
  forM table.entries (updateIndicator item)

/-! ## The values that are accepted -/

/-- An array of one to three floats. -/
def IsColor (value : Item) : Prop :=
  ∃ definite items, value = .array definite items ∧ items ≠ [] ∧ items.length ≤ 3 ∧
    ∀ x ∈ items, x.isFloat = true

theorem isFloat_iff {x : Item} :
    x.isFloat = true ↔ ∃ v, x.floatGetFloat = .ok v := by
  cases x <;> simp [Item.isFloat, Item.floatGetFloat]

/-- A color is read from the arrays of one to three floats. -/
theorem decodeColor_iff {value : Item} :
    (∃ c, decodeColor value = .ok c) ↔ IsColor value := by
  cases value with
  | array definite items =>
      have hcolor : IsColor (.array definite items) ↔
          items ≠ [] ∧ items.length ≤ 3 ∧ ∀ x ∈ items, x.isFloat = true := by
        simp [IsColor]
      rw [hcolor]
      rcases items with _ | ⟨x0, _ | ⟨x1, _ | ⟨x2, _ | ⟨x3, items⟩⟩⟩⟩
      · simp [decodeColor, Item.arrayItems, bind, Except.bind, throw, throwThe,
          MonadExceptOf.throw]
      · show (∃ c, (x0.floatGetFloat >>= fun c0 => _) = Except.ok c) ↔ _
        simp [except_bind_eq_ok, isFloat_iff, pure, Except.pure]
      · show (∃ c, (x1.floatGetFloat >>= fun c1 => x0.floatGetFloat >>= fun c0 => _)
          = Except.ok c) ↔ _
        simp only [except_bind_eq_ok, isFloat_iff, pure, Except.pure]
        simp [and_comm]
      · show (∃ c, (x2.floatGetFloat >>= fun c2 => x1.floatGetFloat >>= fun c1 =>
          x0.floatGetFloat >>= fun c0 => _) = Except.ok c) ↔ _
        simp only [except_bind_eq_ok, isFloat_iff, pure, Except.pure]
        simp
        tauto
      · simp [decodeColor, Item.arrayItems, bind, Except.bind, throw, throwThe,
          MonadExceptOf.throw]
  | _ => simp [IsColor, decodeColor, Item.arrayItems, bind, Except.bind]

/-- Truth values are read as full brightness or none. -/
theorem decodeValue_of_isBool (key : String) {value : Item} (h : value.isBool = true) :
    ∃ v, decodeValue key value = .ok (.brightness v) := by
  cases value with
  | ctrl n =>
      have hn : n = 20 ∨ n = 21 := by simpa [Item.isBool] using h
      rcases hn with rfl | rfl <;> exact ⟨_, rfl⟩
  | _ => cases h

theorem decodeValue_of_isFloat (key : String) {value : Item} (h : value.isFloat = true) :
    ∃ v, decodeValue key value = .ok (.brightness v) := by
  cases value with
  | float width v => exact ⟨_, rfl⟩
  | _ => cases h

theorem decodeValue_of_isColor (key : String) {value : Item} (h : IsColor value) :
    ∃ c, decodeValue key value = .ok (.color c) := by
  obtain ⟨c, hc⟩ := decodeColor_iff.mpr h
  obtain ⟨definite, items, rfl, _⟩ := h
  exact ⟨c, except_bind_eq_ok.mpr ⟨c, hc, rfl⟩⟩

/-- Nothing else is read. -/
theorem decodeValue_cases {key : String} {value : Item} {setting : Setting}
    (h : decodeValue key value = .ok setting) :
    value.isBool = true ∨ value.isFloat = true ∨
      ∃ c, setting = .color c ∧ IsColor value := by
  cases value with
  | ctrl n =>
      cases hb : (Item.ctrl n).isBool with
      | true => exact .inl rfl
      | false =>
          simp [decodeValue, Item.isaFloatCtrl, Item.floatCtrlIsCtrl, hb, Item.isFloat, bind,
            Except.bind, throw, throwThe, MonadExceptOf.throw] at h
  | float width v => exact .inr (.inl rfl)
  | array definite items =>
      obtain ⟨c, hc, h⟩ := except_bind_eq_ok.mp h
      cases h
      exact .inr (.inr ⟨c, rfl, decodeColor_iff.mp ⟨c, hc⟩⟩)
  | _ => cases h

/-- The values an indicator can be set to: the truth values, the floats and,
unless it is mapped to no channel, the colors. -/
def Settable (led : LedManager) (which : Indicator) (value : Item) : Prop :=
  value.isBool = true ∨ value.isFloat = true ∨
    (IsColor value ∧ ∀ this, led.handler which ≠ some (this, []))

theorem settable_iff {led : LedManager} {which : Indicator} (key : String) {value : Item} :
    Settable led which value ↔
      ∃ setting, decodeValue key value = .ok setting ∧ led.Takes which setting := by
  constructor
  · rintro (hb | hf | ⟨hc, hne⟩)
    · obtain ⟨v, hv⟩ := decodeValue_of_isBool key hb
      exact ⟨_, hv, LedManager.takes_brightness v⟩
    · obtain ⟨v, hv⟩ := decodeValue_of_isFloat key hf
      exact ⟨_, hv, LedManager.takes_brightness v⟩
    · obtain ⟨c, hc⟩ := decodeValue_of_isColor key hc
      exact ⟨_, hc, (LedManager.takes_color_iff c).mpr hne⟩
  · rintro ⟨setting, hs, ht⟩
    rcases decodeValue_cases hs with hb | hf | ⟨c, rfl, hc⟩
    · exact .inl hb
    · exact .inr (.inl hf)
    · exact .inr (.inr ⟨hc, (LedManager.takes_color_iff c).mp ht⟩)

/-! ## When the endpoint returns -/

/-- The lookup of a key is defined, and the value, if one is found, is in `P`. -/
def Finds (item : Item) (key : String) (P : Item → Prop) : Prop :=
  ∃ found, cborMapGet item key = .ok found ∧ ∀ value ∈ found, P value

/-- The register writes an entry of the table causes. -/
def writeCount (led : LedManager) (item : Item) (entry : String × Indicator) : Nat :=
  match cborMapGet item entry.1 with
  | .ok (some _) => led.channelCount entry.2
  | _ => 0

/-- Every entry's value, if there is one, can be set, and the register writes
this takes succeed. -/
structure Updatable (led : LedManager) (item : Item) (entries : List (String × Indicator)) :
    Prop where
  finds : ∀ entry ∈ entries, Finds item entry.1 (Settable led entry.2)
  answers : LedManager.Answers led.bus (entries.map (writeCount led item)).sum

theorem updateIndicator_run_eq_ok {led t : LedManager} {item : Item}
    {entry : String × Indicator} (h : (updateIndicator item entry).run led = .ok () t) :
    Finds item entry.1 (Settable led entry.2) ∧
      LedManager.Answers led.bus (writeCount led item entry) ∧
      (∀ which, t.handler which = led.handler which) ∧
      t.bus = led.bus.drop (writeCount led item entry) := by
  obtain ⟨found, hfound, hset⟩ := run_ofExcept_bind_eq_ok.mp h
  unfold writeCount
  cases found with
  | none =>
      cases hset
      rw [hfound]
      exact ⟨⟨none, hfound, fun _ h => (nomatch h)⟩, by simp, fun _ => rfl, rfl⟩
  | some value =>
      obtain ⟨setting, hsetting, hrun⟩ := run_ofExcept_bind_eq_ok.mp hset
      obtain ⟨htakes, hanswers, rfl⟩ := LedManager.set_run_eq_ok_iff.mp hrun
      rw [hfound]
      refine ⟨⟨some value, hfound, ?_⟩, hanswers, fun which => by simp, ?_⟩
      · rintro _ ⟨⟩
        exact (settable_iff entry.1).mpr ⟨setting, hsetting, htakes⟩
      · exact LedManager.bus_painted htakes

theorem updateIndicator_returns {led : LedManager} {item : Item}
    {entry : String × Indicator} (h : Finds item entry.1 (Settable led entry.2))
    (ha : LedManager.Answers led.bus (writeCount led item entry)) :
    ∃ t, (updateIndicator item entry).run led = .ok () t := by
  obtain ⟨found, hfound, hvalue⟩ := h
  unfold writeCount at ha
  rw [hfound] at ha
  cases found with
  | none =>
      exact ⟨led, run_ofExcept_bind_eq_ok.mpr ⟨none, hfound, rfl⟩⟩
  | some value =>
      obtain ⟨setting, hsetting, htakes⟩ :=
        (settable_iff entry.1).mp (hvalue value rfl)
      have hrun := LedManager.set_run_eq_ok_iff.mpr ⟨htakes, ha, rfl⟩
      exact ⟨_, run_ofExcept_bind_eq_ok.mpr ⟨some value, hfound,
        run_ofExcept_bind_eq_ok.mpr ⟨setting, hsetting, hrun⟩⟩⟩

theorem settable_congr {led led' : LedManager} {which : Indicator} {value : Item}
    (h : led'.handler which = led.handler which) :
    Settable led' which value ↔ Settable led which value := by
  simp only [Settable, h]

theorem writeCount_congr {led led' : LedManager} (item : Item) {entry : String × Indicator}
    (h : led'.handler entry.2 = led.handler entry.2) :
    writeCount led' item entry = writeCount led item entry := by
  simp only [writeCount, LedManager.channelCount, h]

/-- An update leaves the mapping of the indicators as it was and uses up its
writes, so the entries after it can be updated if they could before. -/
theorem updatable_cons_iff {led u : LedManager} {item : Item} {entry : String × Indicator}
    {entries : List (String × Indicator)} (hhandler : ∀ which, u.handler which = led.handler which)
    (hbus : u.bus = led.bus.drop (writeCount led item entry)) :
    Updatable led item (entry :: entries) ↔
      (Finds item entry.1 (Settable led entry.2) ∧
        LedManager.Answers led.bus (writeCount led item entry)) ∧
      Updatable u item entries := by
  have hfinds : ∀ e : String × Indicator,
      Finds item e.1 (Settable u e.2) ↔ Finds item e.1 (Settable led e.2) := by
    intro e
    simp only [Finds, settable_congr (hhandler e.2)]
  have hcount : entries.map (writeCount u item) = entries.map (writeCount led item) :=
    List.map_congr_left fun e _ => writeCount_congr item (hhandler e.2)
  constructor
  · rintro ⟨hall, hanswers⟩
    rw [List.map_cons, List.sum_cons, LedManager.answers_add] at hanswers
    refine ⟨⟨hall entry List.mem_cons_self, hanswers.1⟩, ?_, ?_⟩
    · intro e he
      exact (hfinds e).mpr (hall e (List.mem_cons_of_mem _ he))
    · rw [hbus, hcount]
      exact hanswers.2
  · rintro ⟨⟨hentry, hanswers⟩, hall, hrest⟩
    rw [hbus, hcount] at hrest
    constructor
    · intro e he
      rcases List.mem_cons.mp he with rfl | he
      · exact hentry
      · exact (hfinds e).mp (hall e he)
    · rw [List.map_cons, List.sum_cons, LedManager.answers_add]
      exact ⟨hanswers, hrest⟩

/-- The loop returns exactly when every entry it visits can be updated. -/
theorem forM_updateIndicator_returns_iff {led : LedManager} {item : Item}
    {entries : List (String × Indicator)} :
    (∃ t, (forM entries (updateIndicator item)).run led = .ok () t) ↔
      Updatable led item entries := by
  induction entries generalizing led with
  | nil => exact ⟨fun _ => ⟨fun _ h => (nomatch h), by simp⟩, fun _ => ⟨led, rfl⟩⟩
  | cons entry entries ih =>
      rw [List.forM_cons]
      constructor
      · rintro ⟨t, ht⟩
        obtain ⟨_, u, hu, hrest⟩ := run_bind_eq_ok.mp ht
        obtain ⟨hfinds, hanswers, hhandler, hbus⟩ := updateIndicator_run_eq_ok hu
        exact (updatable_cons_iff hhandler hbus).mpr ⟨⟨hfinds, hanswers⟩, ih.mp ⟨t, hrest⟩⟩
      · intro h
        have hanswers := h.answers
        rw [List.map_cons, List.sum_cons, LedManager.answers_add] at hanswers
        obtain ⟨u, hu⟩ := updateIndicator_returns (h.finds entry List.mem_cons_self) hanswers.1
        obtain ⟨_, _, hhandler, hbus⟩ := updateIndicator_run_eq_ok hu
        obtain ⟨t, ht⟩ := ih.mpr ((updatable_cons_iff hhandler hbus).mp h).2
        exact ⟨t, run_bind_eq_ok.mpr ⟨(), u, hu, ht⟩⟩

/-- The condition does not depend on the order of the table. -/
theorem updateIndicators_returns_iff {led : LedManager} (table : IndicatorTable)
    {item : Item} :
    (∃ t, (updateIndicators table item).run led = .ok () t) ↔
      Updatable led item kIndicators := by
  rw [updateIndicators, forM_updateIndicator_returns_iff]
  have hsum : (table.entries.map (writeCount led item)).sum
      = (kIndicators.map (writeCount led item)).sum :=
    (table.perm.map _).sum_eq
  constructor
  · rintro ⟨hfinds, hanswers⟩
    exact ⟨fun e he => hfinds e (table.perm.mem_iff.mpr he), hsum ▸ hanswers⟩
  · rintro ⟨hfinds, hanswers⟩
    exact ⟨fun e he => hfinds e (table.perm.mem_iff.mp he), hsum ▸ hanswers⟩

end Rpc
