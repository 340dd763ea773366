/-
# `Rpc.Totality` — pinballd's endpoints on items of any shape

An endpoint is handed whatever item a client has sent.  Nothing checks that
its root is a map, that keys are definite text or that the elements of a color
are floats, so there are items on which an accessor is applied to what it is
not made for.

`handlers_defined_iff` says on which items the endpoints stay clear of that.
The broadcast configuration never throws, so all three of its keys matter; the
indicator endpoint gets to an entry of its table only if the entries before it
could be updated.
-/
import ProgrammableLoad.Cbor.Lookup
import ProgrammableLoad.Rpc.Isolation

namespace Rpc

open Cpp Cbor Cbor.Util Led Program

/-! ## The shapes that can be read -/

/-- A truth value or a float, which is what a flag is read from. -/
def IsFlag (value : Item) : Prop := value.isBool = true ∨ value.isFloat = true

/-- An array that is short enough for a color has floats only. -/
def ColorReadable (value : Item) : Prop :=
  ∀ definite items, value = .array definite items → items.length ≤ 3 →
    ∀ x ∈ items, x.isFloat = true

/-- All three keys can be looked up, and their values are flags. -/
def ConfigReadable (item : Item) : Prop :=
  ∀ key ∈ ["touch", "button", "encoder"], item.Holds key IsFlag

/-- Every entry of the table that the loop gets to can be looked up, and its
value read. -/
def IndicatorsReadable (table : IndicatorTable) (led : LedManager) (item : Item) : Prop :=
  ∀ before entry after, table.entries = before ++ entry :: after → Updatable led item before →
    item.Holds entry.1 ColorReadable

/-! ## The broadcast configuration -/

theorem finds_iff_holds {item : Item} {key : String} {P : Item → Prop} :
    Finds item key P ↔ item.Holds key P := by
  constructor
  · rintro ⟨found, hfound, hP⟩
    obtain ⟨definite, pairs, rfl, hsearch, rfl⟩ := cborMapGet_eq_ok_iff.mp hfound
    exact ⟨definite, pairs, rfl, hsearch, hP⟩
  · rintro ⟨definite, pairs, rfl, hsearch, hP⟩
    exact ⟨_, cborMapGet_eq_ok_iff.mpr ⟨definite, pairs, rfl, hsearch, rfl⟩, hP⟩

/-- Reading a flag throws nothing. -/
theorem noExcept_updateWants (this : Nat) (item : Item) (key : String)
    (assign : Bool → Client → Client) : NoExcept (updateWants this item key assign) := by
  refine NoExcept.bind (noExcept_ofExcept (cborMapGet_ne_thrown item key)) ?_
  rintro (_ | value)
  · exact NoExcept.ret ()
  · refine NoExcept.bind (noExcept_ofExcept ?_) ?_
    · intro e h
      cases value <;> cases h
    · rintro (_ | _)
      · exact NoExcept.ret ()
      · refine NoExcept.bind (noExcept_ofExcept ?_) fun wants => NoExcept.modify _
        intro e h
        cases value with
        | ctrl n =>
            unfold Item.getBool at h
            simp only at h
            split at h
            · cases h
            · split at h
              · cases h
              · cases h
        | _ => cases h

theorem definedFrom_updateBroadcastConfig_iff {this : Nat} {item : Item} {s : Server} :
    DefinedFrom (updateBroadcastConfig this item) s ↔ ConfigReadable item := by
  have hnoExcept : NoExcept (updateBroadcastConfig this item) :=
    NoExcept.bind (noExcept_updateWants _ _ _ _) fun _ =>
      NoExcept.bind (noExcept_updateWants _ _ _ _) fun _ => noExcept_updateWants _ _ _ _
  rw [definedFrom_iff_returns hnoExcept]
  constructor
  · rintro ⟨_, t, ht⟩ key hkey
    exact finds_iff_holds.mp (updateBroadcastConfig_returns_iff.mp ⟨t, ht⟩ key hkey)
  · intro h
    obtain ⟨t, ht⟩ := updateBroadcastConfig_returns_iff.mpr fun key hkey =>
      finds_iff_holds.mpr (h key hkey)
    exact ⟨(), t, ht⟩

/-! ## The indicators -/

theorem alwaysDefined_writeRegister (this : Nat) (start : Register) (data : Byte) :
    AlwaysDefined (Pca9955.writeRegister this start data) := by
  intro s op t h
  rcases hbus : s.bus with _ | ⟨_ | err, rest⟩
  · simp [Pca9955.writeRegister, hbus] at h
  · simp [Pca9955.writeRegister, hbus] at h
  · simp [Pca9955.writeRegister, hbus] at h

/-- Setting an indicator may throw, but is defined. -/
theorem alwaysDefined_set (which : Indicator) (setting : Setting) :
    AlwaysDefined (LedManager.set which setting) := by
  intro s op t h
  rw [LedManager.set_run] at h
  split at h
  · cases h
  · split at h
    · exact AlwaysDefined.forM (fun w _ => alwaysDefined_writeRegister _ _ _) s op t h
    · cases h

/-- A float is read, then something whose definedness does not depend on it. -/
theorem defined_float_bind_iff {α : Type} {x : Item} {f : Double → Except Fault α} {P : Prop}
    (h : ∀ v, Defined (f v) ↔ P) :
    Defined (x.floatGetFloat >>= f) ↔ x.isFloat = true ∧ P := by
  cases x with
  | float width v => simp [Item.floatGetFloat, Item.isFloat, defined_bind_iff, h]
  | _ => simp [Item.floatGetFloat, Item.isFloat, defined_bind_iff]

theorem defined_decodeColor_iff {definite : Bool} {items : List Item} :
    Defined (decodeColor (.array definite items)) ↔
      (items.length ≤ 3 → ∀ x ∈ items, x.isFloat = true) := by
  have hdone : ∀ c : Color, Defined (pure c : Except Fault Color) ↔ True :=
    fun c => iff_true_intro (defined_pure c)
  rcases items with _ | ⟨x0, _ | ⟨x1, _ | ⟨x2, _ | ⟨x3, items⟩⟩⟩⟩
  · exact iff_of_true (defined_thrown _) (by simp)
  · show Defined (x0.floatGetFloat >>= fun c0 => pure ((c0, .num 0, .num 0) : Color)) ↔ _
    rw [defined_float_bind_iff fun c0 => hdone _]
    simp
  · show Defined (x1.floatGetFloat >>= fun c1 => x0.floatGetFloat >>= fun c0 =>
      pure ((c0, c1, .num 0) : Color)) ↔ _
    rw [defined_float_bind_iff fun c1 => defined_float_bind_iff fun c0 => hdone _]
    simp [and_comm]
  · show Defined (x2.floatGetFloat >>= fun c2 => x1.floatGetFloat >>= fun c1 =>
      x0.floatGetFloat >>= fun c0 => pure ((c0, c1, c2) : Color)) ↔ _
    rw [defined_float_bind_iff fun c2 => defined_float_bind_iff fun c1 =>
      defined_float_bind_iff fun c0 => hdone _]
    simp
    tauto
  · exact iff_of_true (defined_thrown _) (by simp)

/-- Of all values only arrays with other things than floats are misread. -/
theorem defined_decodeValue_iff {key : String} {value : Item} :
    Defined (decodeValue key value) ↔ ColorReadable value := by
  cases value with
  | array definite items =>
      have hstep : Defined (decodeValue key (.array definite items)) ↔
          Defined (decodeColor (.array definite items)) := by
        show Defined (decodeColor (.array definite items) >>= fun c => pure (Setting.color c)) ↔ _
        rw [defined_bind_iff]
        exact and_iff_left fun c _ => defined_pure _
      rw [hstep, defined_decodeColor_iff]
      constructor
      · rintro h _ _ ⟨⟩
        exact h
      · intro h
        exact h definite items rfl
  | ctrl n =>
      refine iff_of_true ?_ (by rintro _ _ ⟨⟩)
      cases hb : (Item.ctrl n).isBool with
      | true =>
          obtain ⟨v, hv⟩ := decodeValue_of_isBool key hb
          exact Defined.of_ok hv
      | false =>
          have hthrow : decodeValue key (.ctrl n)
              = .error (.thrown (.runtimeError "unsupported float-type value")) := by
            simp [decodeValue, Item.isaFloatCtrl, Item.floatCtrlIsCtrl, hb, Item.isFloat, bind,
              Except.bind, throw, throwThe, MonadExceptOf.throw]
          rw [hthrow]
          exact defined_thrown _
  | _ => exact iff_of_true (by intro op h; cases h) (by rintro _ _ ⟨⟩)

theorem definedFrom_updateIndicator_iff {item : Item} {entry : String × Indicator}
    {led : LedManager} :
    DefinedFrom (updateIndicator item entry) led ↔ item.Holds entry.1 ColorReadable := by
  unfold updateIndicator
  rw [definedFrom_ofExcept_bind_iff, defined_cborMapGet_and_iff]
  refine exists_congr fun definite => exists_congr fun pairs => and_congr_right fun _ =>
    and_congr_right fun _ => ?_
  cases valueOf entry.1 pairs with
  | none =>
      constructor
      · intro _ value hvalue
        cases hvalue
      · intro _
        exact definedFrom_pure () led
  | some value =>
      constructor
      · rintro h _ ⟨⟩
        exact defined_decodeValue_iff.mp (definedFrom_ofExcept_bind_iff.mp h).1
      · intro h
        refine definedFrom_ofExcept_bind_iff.mpr ⟨defined_decodeValue_iff.mpr (h value rfl), ?_⟩
        intro setting _
        exact alwaysDefined_set entry.2 setting led

theorem definedFrom_updateIndicators_iff {table : IndicatorTable} {item : Item}
    {led : LedManager} :
    DefinedFrom (updateIndicators table item) led ↔ IndicatorsReadable table led item := by
  unfold updateIndicators IndicatorsReadable
  rw [definedFrom_forM_iff]
  refine forall_congr' fun before => forall_congr' fun entry => forall_congr' fun after => ?_
  constructor
  · intro h hentries hbefore
    obtain ⟨t, ht⟩ := forM_updateIndicator_returns_iff.mpr hbefore
    exact definedFrom_updateIndicator_iff.mp (h t hentries ht)
  · intro h t hentries ht
    exact definedFrom_updateIndicator_iff.mpr
      (h hentries (forM_updateIndicator_returns_iff.mp ⟨t, ht⟩))

/-- What the endpoints do with an item is defined if and only if they can read
it as far as they get. -/
theorem handlers_defined_iff (table : IndicatorTable) (this : Nat) (item : Item) (s : Server) :
    (DefinedFrom (updateBroadcastConfig this item) s ↔ ConfigReadable item) ∧
      (DefinedFrom (updateIndicators table item) s.ledManager ↔
        IndicatorsReadable table s.ledManager item) :=
  ⟨definedFrom_updateBroadcastConfig_iff, definedFrom_updateIndicators_iff⟩

/-- A number in the place of the map. -/
theorem not_handlers_defined_number :
    ¬ (DefinedFrom (updateBroadcastConfig 4 (.uint .int8 0)) twoClients ∧
      DefinedFrom (updateIndicators .listed (.uint .int8 0)) twoClients.ledManager) := by
  rintro ⟨h, _⟩
  exact h "cbor_map_handle" twoClients rfl

end Rpc
