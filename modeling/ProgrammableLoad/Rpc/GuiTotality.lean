/-
# `Rpc.GuiTotality` — the GUI's handlers on messages of any shape

Whatever the two servers send, down to a header with no payload, ends up in
the handlers of the GUI's clients.  They check more of a message than
pinballd's do, but not that there is one, that a text is definite, that the
touches and the buttons come in maps, that a touch that is not a map is null,
that a position has two components, or that a quantity is not a control value.

`guiHandlers_defined_iff` says for which packets none of this matters.  A handler
that throws stops there, so of a list of touches only those before the first
invalid one count.
-/
import ProgrammableLoad.Cbor.Lookup
import ProgrammableLoad.Rpc.LoaddClient
import ProgrammableLoad.Rpc.UiEvents

namespace Rpc

open Cpp Cbor Cbor.Util Program

/-! ## Measurements -/

def NotControl (value : Item) : Prop := ∀ n, value ≠ .ctrl n

def IsFloat (value : Item) : Prop := value.isFloat = true

/-- The quantities can be read, up to the first that is refused. -/
def QuantitiesReadable (item : Item) : Prop :=
  item.Holds "v" NotControl ∧ (item.Holds "v" IsFloat →
    item.Holds "i" NotControl ∧ (item.Holds "i" IsFloat → item.Holds "t" NotControl))

/-- There is an item, and it is no map or one whose quantities can be read. -/
def MeasurementReadable (message : Option Item) : Prop :=
  ∃ item, message = some item ∧ (item.isaMap = true → QuantitiesReadable item)

/-! ## Touches -/

/-- The components of the position that are looked at are there. -/
def PositionReadable (value : Item) : Prop :=
  ∀ definite items, value = .array definite items →
    ∃ x rest, items = x :: rest ∧ (x.isaUint = true → rest ≠ [])

/-- The values a touch can have. -/
def TouchValue (value : Item) : Prop := value.isaMap = true ∨ value.isaFloatCtrl = true

/-- A touch that can be read: if it is the first one and not released, it is a
map, and its position can be read. -/
def TouchReadable (touch : Item × Item) : Prop :=
  ∀ width, touch.1 = .uint width 0 → TouchValue touch.2 → touch.2.isNull = false →
    touch.2.Holds "position" PositionReadable

/-- A position with two numbers. -/
def IsPosition (value : Item) : Prop :=
  ∃ definite x y rest, value = .array definite (x :: y :: rest) ∧
    x.isaUint = true ∧ y.isaUint = true

/-- A touch that is taken: one that is not the first, is released, or has a
position. -/
def TouchTaken (touch : Item × Item) : Prop :=
  TouchValue touch.2 ∧ ∃ width touchId, touch.1 = .uint width touchId ∧
    (touchId ≠ 0 ∨ touch.2.isNull = true ∨
      ∃ value, touch.2.Has "position" value ∧ IsPosition value)

/-- A map whose touches can be read, up to the first that is refused. -/
def TouchesReadable (touchData : Item) : Prop :=
  ∃ definite touches, touchData = .map definite touches ∧
    WhileTaken TouchTaken TouchReadable touches

/-! ## Buttons -/

def ButtonTaken (button : Item × Item) : Prop :=
  button.1.isText = true ∧ button.2.isBool = true

/-- The name of a button that has a state is definite. -/
def ButtonReadable (button : Item × Item) : Prop :=
  button.2.isBool = true → button.1.isaString = true → button.1.isText = true

def ButtonsReadable (buttonData : Item) : Prop :=
  ∃ definite buttons, buttonData = .map definite buttons ∧
    WhileTaken ButtonTaken ButtonReadable buttons

/-! ## Input events -/

/-- The type of a map of an event is definite, and what it says can be read. -/
structure EventReadable (item : Item) : Prop where
  type : item.Holds "type" fun value => value.isaString = true → value.isText = true
  touch : item.Has "type" (.ofString "touch") → item.Holds "touchData" TouchesReadable
  button : item.Has "type" (.ofString "button") → item.Holds "buttonData" ButtonsReadable

/-- There is an item, and it is no map or one that can be read. -/
def UiEventReadable (message : Option Item) : Prop :=
  ∃ item, message = some item ∧ (item.isaMap = true → EventReadable item)

/-! ## One lemma per function -/

theorem defined_floatGetFloat_iff {value : Item} (h : value.isaFloatCtrl = true) :
    Defined value.floatGetFloat ↔ NotControl value := by
  cases value with
  | ctrl n => exact iff_of_false (not_defined_undefined _) fun h => h n rfl
  | float width v => exact iff_of_true (defined_ok _) nofun
  | _ => cases h

theorem defined_readQuantity_iff {item : Item} {key what : String} :
    Defined (LoaddClient.readQuantity item key what) ↔ item.Holds key NotControl := by
  refine defined_lookup_iff (defined_pure _) ?_
  intro value
  cases h : value.isaFloatCtrl with
  | false =>
      refine iff_of_true (by simp [h]) ?_
      rintro n rfl
      cases h
  | true =>
      simp only [h, Bool.true_eq_false, if_false]
      exact defined_floatGetFloat_iff h

theorem readQuantity_returns_iff {item : Item} {key what : String} :
    (∃ v, LoaddClient.readQuantity item key what = .ok v) ↔ item.Holds key IsFloat := by
  unfold LoaddClient.readQuantity
  simp only [except_bind_eq_ok, cborMapGet_eq_ok_iff]
  constructor
  · rintro ⟨v, _, ⟨definite, pairs, rfl, hsearch, rfl⟩, hv⟩
    refine ⟨definite, pairs, rfl, hsearch, ?_⟩
    intro value hvalue
    rw [Option.mem_def.mp hvalue] at hv
    cases value with
    | float width x => rfl
    | _ => cases hv
  · rintro ⟨definite, pairs, rfl, hsearch, hvalue⟩
    cases hfound : valueOf key pairs with
    | none => exact ⟨.num 0, none, ⟨definite, pairs, rfl, hsearch, hfound.symm⟩, rfl⟩
    | some value =>
        have hfloat := hvalue value hfound
        cases value with
        | float width x => exact ⟨x, _, ⟨definite, pairs, rfl, hsearch, hfound.symm⟩, rfl⟩
        | _ => cases hfloat

theorem defined_readMeasurement_iff {item : Item} :
    Defined (LoaddClient.readMeasurement item) ↔ QuantitiesReadable item := by
  unfold LoaddClient.readMeasurement QuantitiesReadable
  rw [defined_bind_iff_of_forall (P := item.Holds "i" NotControl ∧
      (item.Holds "i" IsFloat → item.Holds "t" NotControl)), defined_readQuantity_iff,
    readQuantity_returns_iff]
  intro voltage
  rw [defined_bind_iff_of_forall (P := item.Holds "t" NotControl), defined_readQuantity_iff,
    readQuantity_returns_iff]
  intro current
  rw [defined_bind_iff, defined_readQuantity_iff]
  exact and_iff_left fun temperature _ => defined_pure _

theorem definedFrom_processMeasurement_iff {item : Item} {c : LoaddClient} :
    DefinedFrom (LoaddClient.processMeasurement item) c ↔
      (item.isaMap = true → QuantitiesReadable item) := by
  unfold LoaddClient.processMeasurement
  cases h : item.isaMap with
  | false => exact iff_of_true (definedFrom_thrown _ c) (fun h => nomatch h)
  | true =>
      simp only [Bool.true_eq_false, if_false, forall_const]
      rw [definedFrom_ofExcept_bind_iff, defined_readMeasurement_iff]
      exact and_iff_left fun meas _ => definedFrom_modify _ c

theorem definedFrom_loadd_iff {header : Header} {message : Option Item} {c : LoaddClient} :
    DefinedFrom (LoaddClient.handleIncomingMessage header message) c ↔
      (header.endpoint = kRpcEndpointMeasurement → MeasurementReadable message) := by
  unfold LoaddClient.handleIncomingMessage MeasurementReadable
  by_cases hep : header.endpoint = kRpcEndpointMeasurement
  · rw [if_pos hep]
    cases message with
    | none =>
        refine iff_of_false (fun h => h _ c rfl) ?_
        intro h
        obtain ⟨_, hnone, _⟩ := h hep
        cases hnone
    | some item => simp [definedFrom_processMeasurement_iff, hep]
  · rw [if_neg hep]
    exact iff_of_true (definedFrom_pure () c) fun h => absurd h hep

/-! ## Touches, one by one -/

/-- Both components of a position, read one after the other. -/
theorem defined_readPosition_iff {definite : Bool} {items : List Item} :
    Defined (do
      let posX ← cborReadUint (← (Item.array definite items).arrayGet 0)
      let posY ← cborReadUint (← (Item.array definite items).arrayGet 1)
      return (BitVec.ofNat 16 posX, BitVec.ofNat 16 posY)) ↔
      PositionReadable (.array definite items) := by
  have hreadable : PositionReadable (.array definite items) ↔
      ∃ x rest, items = x :: rest ∧ (x.isaUint = true → rest ≠ []) := by
    constructor
    · intro h
      exact h definite items rfl
    · rintro h _ _ ⟨⟩
      exact h
  rw [hreadable]
  rcases items with _ | ⟨x, _ | ⟨y, rest⟩⟩
  · refine iff_of_false (not_defined_undefined _) ?_
    rintro ⟨x, rest, h, _⟩
    cases h
  · show Defined (cborReadUint x >>= fun posX => Except.error (.undefined "cbor_array_get")) ↔ _
    rw [defined_bind_iff_of_forall (P := False) fun _ => by simp, cborReadUint_returns_iff]
    simp [defined_cborReadUint]
  · show Defined (cborReadUint x >>= fun posX => cborReadUint y >>= fun posY =>
      pure (BitVec.ofNat 16 posX, BitVec.ofNat 16 posY)) ↔ _
    refine iff_of_true ?_ ⟨x, y :: rest, rfl, fun _ => List.cons_ne_nil y rest⟩
    refine defined_bind_iff.mpr ⟨defined_cborReadUint x, fun posX _ => ?_⟩
    exact defined_bind_iff.mpr ⟨defined_cborReadUint y, fun posY _ => defined_pure _⟩

theorem defined_touchPosition_iff {touch : Item} :
    Defined (PinballClient.touchPosition touch) ↔ touch.Holds "position" PositionReadable := by
  refine defined_lookup_iff (defined_throw _) ?_
  intro value
  cases value with
  | array definite items => exact defined_readPosition_iff
  | _ => exact iff_of_true (defined_throw _) nofun

theorem touchPosition_returns_iff {touch : Item} :
    (∃ pos, PinballClient.touchPosition touch = .ok pos) ↔
      ∃ value, touch.Has "position" value ∧ IsPosition value := by
  unfold PinballClient.touchPosition
  simp only [except_bind_eq_ok]
  constructor
  · rintro ⟨pos, found, hfound, hpos⟩
    cases found with
    | none => cases hpos
    | some value =>
        refine ⟨value, cborMapGet_eq_ok_some_iff.mp hfound, ?_⟩
        cases value with
        | array definite items =>
            rcases items with _ | ⟨x, _ | ⟨y, rest⟩⟩
            · cases hpos
            · obtain ⟨_, _, hpos⟩ := except_bind_eq_ok.mp
                (show (cborReadUint x >>= fun posX =>
                  Except.error (.undefined "cbor_array_get")) = .ok pos from hpos)
              cases hpos
            · obtain ⟨posX, hx, hpos⟩ := except_bind_eq_ok.mp
                (show (cborReadUint x >>= fun posX => cborReadUint y >>= fun posY =>
                  pure (BitVec.ofNat 16 posX, BitVec.ofNat 16 posY)) = .ok pos from hpos)
              obtain ⟨posY, hy, _⟩ := except_bind_eq_ok.mp hpos
              exact ⟨definite, x, y, rest, rfl, cborReadUint_returns_iff.mp ⟨posX, hx⟩,
                cborReadUint_returns_iff.mp ⟨posY, hy⟩⟩
        | _ => cases hpos
  · rintro ⟨_, hhas, definite, x, y, rest, rfl, hx, hy⟩
    obtain ⟨posX, hposX⟩ := cborReadUint_returns_iff.mpr hx
    obtain ⟨posY, hposY⟩ := cborReadUint_returns_iff.mpr hy
    refine ⟨(BitVec.ofNat 16 posX, BitVec.ofNat 16 posY), _, cborMapGet_eq_ok_some_iff.mpr hhas, ?_⟩
    show (cborReadUint x >>= fun posX => cborReadUint y >>= fun posY =>
      pure (BitVec.ofNat 16 posX, BitVec.ofNat 16 posY)) = Except.ok _
    rw [hposX, hposY]
    rfl

theorem processTouch_uint (width : IntWidth) (touchId : Nat) {value : Item}
    (h : TouchValue value) :
    PinballClient.processTouch (.uint width touchId, value)
      = if touchId ≠ 0 then pure ()
        else if value.isNull = true then PinballClient.emitTouchUp
        else MonadExcept.ofExcept (PinballClient.touchPosition value) >>= fun pos =>
          PinballClient.emitTouchDown pos.1 pos.2 := by
  have hnot : ¬ (value.isaMap = false ∧ value.isaFloatCtrl = false) := by
    rintro ⟨hmap, hctrl⟩
    rcases h with h | h
    · exact Bool.false_ne_true (hmap.symm.trans h)
    · exact Bool.false_ne_true (hctrl.symm.trans h)
  unfold PinballClient.processTouch
  rw [if_neg (by simp [Item.isaUint]), if_neg hnot]
  rfl

/-- The touches that are refused before their number is looked at. -/
theorem processTouch_throws {touch : Item × Item}
    (h : ¬ (touch.1.isaUint = true ∧ TouchValue touch.2)) :
    ∃ e, PinballClient.processTouch touch = throw (.thrown e) := by
  unfold PinballClient.processTouch
  by_cases hkey : touch.1.isaUint = false
  · exact ⟨_, if_pos hkey⟩
  · rw [if_neg hkey]
    have hvalue : touch.2.isaMap = false ∧ touch.2.isaFloatCtrl = false := by
      have hnot : ¬ TouchValue touch.2 := fun hv => h ⟨Bool.not_eq_false _ ▸ hkey, hv⟩
      simpa [TouchValue] using hnot
    exact ⟨_, if_pos hvalue⟩

theorem definedFrom_processTouch_iff (touch : Item × Item) (c : PinballClient) :
    DefinedFrom (PinballClient.processTouch touch) c ↔ TouchReadable touch := by
  by_cases h : touch.1.isaUint = true ∧ TouchValue touch.2
  · obtain ⟨key, value⟩ := touch
    obtain ⟨hkey, hvalue⟩ := h
    obtain ⟨width, touchId, rfl⟩ := isaUint_iff.mp hkey
    rw [processTouch_uint width touchId hvalue]
    by_cases hother : touchId ≠ 0
    · rw [if_pos hother]
      refine iff_of_true (definedFrom_pure () c) ?_
      intro width' hkey'
      cases hkey'
      exact absurd rfl hother
    · rw [if_neg hother]
      cases hnull : value.isNull with
      | true =>
          refine iff_of_true (DefinedFrom.of_ok rfl) ?_
          intro width' _ _ hnot
          exact absurd hnull (by simp only [hnot, Bool.false_eq_true, not_false_eq_true])
      | false =>
          simp only [Bool.false_eq_true, if_false]
          rw [definedFrom_ofExcept_bind_iff, defined_touchPosition_iff]
          constructor
          · rintro ⟨hposition, _⟩ _ _ _ _
            exact hposition
          · intro hreadable
            have hzero : touchId = 0 := not_not.mp hother
            exact ⟨hreadable width (by rw [hzero]) hvalue hnull, fun pos _ => DefinedFrom.of_ok rfl⟩
  · obtain ⟨e, he⟩ := processTouch_throws h
    rw [he]
    refine iff_of_true (definedFrom_thrown e c) ?_
    intro width hkey hvalue
    exact absurd ⟨isaUint_iff.mpr ⟨width, 0, hkey⟩, hvalue⟩ h

theorem processTouch_returns_iff (touch : Item × Item) (c : PinballClient) :
    (∃ t, (PinballClient.processTouch touch).run c = .ok () t) ↔ TouchTaken touch := by
  by_cases h : touch.1.isaUint = true ∧ TouchValue touch.2
  · obtain ⟨key, value⟩ := touch
    obtain ⟨hkey, hvalue⟩ := h
    obtain ⟨width, touchId, rfl⟩ := isaUint_iff.mp hkey
    have htaken : TouchTaken (.uint width touchId, value) ↔ touchId ≠ 0 ∨ value.isNull = true ∨
        ∃ position, value.Has "position" position ∧ IsPosition position := by
      constructor
      · rintro ⟨_, _, _, ⟨⟩, htaken⟩
        exact htaken
      · intro htaken
        exact ⟨hvalue, width, touchId, rfl, htaken⟩
    rw [htaken, processTouch_uint width touchId hvalue, ← touchPosition_returns_iff]
    by_cases hother : touchId ≠ 0
    · rw [if_pos hother]
      exact iff_of_true ⟨c, rfl⟩ (.inl hother)
    · rw [if_neg hother]
      cases hnull : value.isNull with
      | true => exact iff_of_true ⟨_, rfl⟩ (.inr (.inl rfl))
      | false =>
          simp only [Bool.false_eq_true, if_false, hother, false_or]
          constructor
          · rintro ⟨t, ht⟩
            obtain ⟨pos, hpos, _⟩ := run_ofExcept_bind_eq_ok.mp ht
            exact ⟨pos, hpos⟩
          · rintro ⟨pos, hpos⟩
            exact ⟨_, run_ofExcept_bind_eq_ok.mpr ⟨pos, hpos, rfl⟩⟩
  · obtain ⟨e, he⟩ := processTouch_throws h
    rw [he]
    refine iff_of_false (fun ⟨_, h⟩ => nomatch h) ?_
    rintro ⟨hvalue, width, touchId, hkey, _⟩
    exact h ⟨isaUint_iff.mpr ⟨width, touchId, hkey⟩, hvalue⟩

theorem definedFrom_mapLoop_iff {σ : Type} {f : Item × Item → EStateM Fault σ Unit}
    {taken P : Item × Item → Prop} (htaken : ∀ a s, (∃ t, (f a).run s = .ok () t) ↔ taken a)
    (hP : ∀ a s, DefinedFrom (f a) s ↔ P a) {data : Item} {s : σ} :
    DefinedFrom (do forM (← MonadExcept.ofExcept data.mapHandle) f) s ↔
      ∃ definite pairs, data = .map definite pairs ∧ WhileTaken taken P pairs := by
  rw [definedFrom_ofExcept_bind_iff]
  cases data with
  | map definite pairs =>
      constructor
      · rintro ⟨_, h⟩
        exact ⟨definite, pairs, rfl, (definedFrom_forM_iff_whileTaken htaken hP).mp (h pairs rfl)⟩
      · rintro ⟨_, _, ⟨⟩, h⟩
        refine ⟨defined_ok pairs, ?_⟩
        rintro _ ⟨⟩
        exact (definedFrom_forM_iff_whileTaken htaken hP).mpr h
  | _ =>
      refine iff_of_false ?_ ?_
      · rintro ⟨h, _⟩
        exact not_defined_undefined _ h
      · rintro ⟨_, _, h, _⟩
        cases h

theorem definedFrom_processUiTouchEvent_iff {root : Item} {c : PinballClient} :
    DefinedFrom (PinballClient.processUiTouchEvent root) c ↔
      root.Holds "touchData" TouchesReadable := by
  refine definedFrom_lookup_iff (definedFrom_thrown _ c) ?_
  intro touchData
  exact definedFrom_mapLoop_iff processTouch_returns_iff definedFrom_processTouch_iff

/-! ## Buttons, one by one -/

theorem isaFloatCtrl_of_isBool {value : Item} (h : value.isBool = true) :
    value.isaFloatCtrl = true := by
  cases value with
  | ctrl n => rfl
  | _ => cases h

/-- The buttons that are refused. -/
theorem processButton_throws {button : Item × Item}
    (h : ¬ (button.1.isaString = true ∧ button.2.isBool = true)) :
    ∃ e, PinballClient.processButton button = throw (.thrown e) := by
  unfold PinballClient.processButton
  by_cases hkey : button.1.isaString = false
  · exact ⟨_, if_pos hkey⟩
  · rw [if_neg hkey]
    have hbool : button.2.isBool = false := by
      rw [Bool.eq_false_iff]
      intro hbool
      exact h ⟨Bool.not_eq_false _ ▸ hkey, hbool⟩
    exact ⟨_, if_pos (.inr hbool)⟩

/-- The buttons whose name is read, be it definite or not. -/
theorem processButton_string {key value : Item} (hkey : key.isaString = true)
    (hvalue : value.isBool = true) :
    ∃ state, PinballClient.processButton (key, value)
      = (MonadExcept.ofExcept key.stringHandle >>= fun name =>
          if name = ascii "menu" ∨ name = ascii "select" then
            PinballClient.emitButtonEventGui name state
          else pure ()) := by
  obtain ⟨state, hstate⟩ := Item.getBool_eq_ok_iff.mpr hvalue
  refine ⟨state, ?_⟩
  unfold PinballClient.processButton
  rw [if_neg (by simp [hkey]), if_neg (by simp [hvalue, isaFloatCtrl_of_isBool hvalue])]
  refine congrArg (MonadExcept.ofExcept key.stringHandle >>= ·) ?_
  funext name
  show (MonadExcept.ofExcept value.getBool >>= fun state => _) = _
  rw [hstate]
  rfl

theorem emitButtonEventGui_returns {name : List Byte} (state : Bool) (c : PinballClient)
    (h : name = ascii "menu" ∨ name = ascii "select") :
    ∃ t, (PinballClient.emitButtonEventGui name state).run c = .ok () t := by
  unfold PinballClient.emitButtonEventGui
  rw [run_get_bind, run_ite]
  split
  · rw [run_ite]
    split
    · exact ⟨_, rfl⟩
    · rename_i hmenu
      rw [run_ite, if_pos (h.resolve_left hmenu)]
      exact ⟨_, rfl⟩
  · exact ⟨c, rfl⟩

/-- A button with a definite name is taken. -/
theorem processButton_text_returns (data : List Byte) {value : Item} (h : value.isBool = true)
    (c : PinballClient) : ∃ t, (PinballClient.processButton (.text data, value)).run c = .ok () t := by
  obtain ⟨state, hstep⟩ := processButton_string (show (Item.text data).isaString = true from rfl) h
  rw [hstep]
  show ∃ t, EStateM.run (if data = ascii "menu" ∨ data = ascii "select" then
    PinballClient.emitButtonEventGui data state else pure ()) c = .ok () t
  rw [run_ite]
  split
  · rename_i hname
    exact emitButtonEventGui_returns state c hname
  · exact ⟨c, rfl⟩

theorem processButton_returns_iff (button : Item × Item) (c : PinballClient) :
    (∃ t, (PinballClient.processButton button).run c = .ok () t) ↔ ButtonTaken button := by
  by_cases h : button.1.isaString = true ∧ button.2.isBool = true
  · obtain ⟨key, value⟩ := button
    obtain ⟨hkey, hvalue⟩ := h
    cases key with
    | text data => exact iff_of_true (processButton_text_returns data hvalue c) ⟨rfl, hvalue⟩
    | textChunks chunks =>
        obtain ⟨state, hstep⟩ := processButton_string hkey hvalue
        rw [hstep]
        refine iff_of_false (fun ⟨_, h⟩ => nomatch h) ?_
        rintro ⟨h, _⟩
        cases h
    | _ => cases hkey
  · obtain ⟨e, he⟩ := processButton_throws h
    rw [he]
    refine iff_of_false (fun ⟨_, h⟩ => nomatch h) ?_
    rintro ⟨hkey, hvalue⟩
    refine h ⟨?_, hvalue⟩
    cases hbutton : button.1 with
    | text data => rfl
    | _ =>
        rw [hbutton] at hkey
        cases hkey

theorem definedFrom_processButton_iff (button : Item × Item) (c : PinballClient) :
    DefinedFrom (PinballClient.processButton button) c ↔ ButtonReadable button := by
  by_cases h : button.1.isaString = true ∧ button.2.isBool = true
  · obtain ⟨key, value⟩ := button
    obtain ⟨hkey, hvalue⟩ := h
    cases key with
    | text data =>
        obtain ⟨t, ht⟩ := processButton_text_returns data hvalue c
        exact iff_of_true (DefinedFrom.of_ok ht) fun _ _ => rfl
    | textChunks chunks =>
        obtain ⟨state, hstep⟩ := processButton_string hkey hvalue
        rw [hstep]
        refine iff_of_false (fun h => h _ c rfl) ?_
        intro hreadable
        exact Bool.false_ne_true (hreadable hvalue rfl)
    | _ => cases hkey
  · obtain ⟨e, he⟩ := processButton_throws h
    rw [he]
    refine iff_of_true (definedFrom_thrown e c) ?_
    intro hvalue hkey
    exact absurd ⟨hkey, hvalue⟩ h

theorem definedFrom_processUiButtonEvent_iff {root : Item} {c : PinballClient} :
    DefinedFrom (PinballClient.processUiButtonEvent root) c ↔
      root.Holds "buttonData" ButtonsReadable := by
  refine definedFrom_lookup_iff (definedFrom_thrown _ c) ?_
  intro buttonData
  exact definedFrom_mapLoop_iff processButton_returns_iff definedFrom_processButton_iff

/-! ## Whole messages -/

theorem holds_of_has {item value : Item} {key : String} {P : Item → Prop}
    (hhas : item.Has key value) : item.Holds key P ↔ P value := by
  obtain ⟨definite, pairs, rfl, hsearch, hvalue⟩ := hhas
  constructor
  · rintro ⟨_, _, ⟨⟩, _, hP⟩
    exact hP value hvalue
  · intro hP
    refine ⟨definite, pairs, rfl, hsearch, ?_⟩
    intro value' hvalue'
    rw [hvalue] at hvalue'
    cases hvalue'
    exact hP

/-- What is asked of the type of an event. -/
def TypeReadable (item typeKey : Item) : Prop :=
  (typeKey.isaString = true → typeKey.isText = true) ∧
    (typeKey = .ofString "touch" → item.Holds "touchData" TouchesReadable) ∧
    (typeKey = .ofString "button" → item.Holds "buttonData" ButtonsReadable)

theorem eventReadable_iff {item : Item} :
    EventReadable item ↔ item.Holds "type" (TypeReadable item) := by
  constructor
  · rintro ⟨⟨definite, pairs, rfl, hsearch, htype⟩, htouch, hbutton⟩
    refine ⟨definite, pairs, rfl, hsearch, ?_⟩
    intro typeKey htypeKey
    refine ⟨htype typeKey htypeKey, ?_, ?_⟩
    · rintro rfl
      exact htouch ⟨definite, pairs, rfl, hsearch, htypeKey⟩
    · rintro rfl
      exact hbutton ⟨definite, pairs, rfl, hsearch, htypeKey⟩
  · intro h
    have htype := h
    obtain ⟨definite, pairs, hitem, hsearch, hP⟩ := htype
    refine ⟨⟨definite, pairs, hitem, hsearch, fun typeKey htypeKey => (hP typeKey htypeKey).1⟩, ?_, ?_⟩
    · intro hhas
      exact ((holds_of_has hhas).mp h).2.1 rfl
    · intro hhas
      exact ((holds_of_has hhas).mp h).2.2 rfl

theorem definedFrom_text_type_iff {item : Item} {data : List Byte} {c : PinballClient} :
    DefinedFrom (if data = ascii "touch" then PinballClient.processUiTouchEvent item
      else if data = ascii "button" then PinballClient.processUiButtonEvent item
      else pure ()) c ↔ TypeReadable item (.text data) := by
  have hne : ascii "button" ≠ ascii "touch" := by decide
  have heq : ∀ s : String, Item.text data = .ofString s ↔ data = ascii s := by
    intro s
    simp [Item.ofString]
  simp only [TypeReadable, Item.isText, heq, implies_true, true_and]
  by_cases htouch : data = ascii "touch"
  · subst htouch
    simp [hne.symm, definedFrom_processUiTouchEvent_iff]
  · by_cases hbutton : data = ascii "button"
    · subst hbutton
      simp [hne, definedFrom_processUiButtonEvent_iff]
    · simp [htouch, hbutton, definedFrom_pure]

theorem definedFrom_processUiEvent_iff {item : Item} {c : PinballClient} :
    DefinedFrom (PinballClient.processUiEvent item) c ↔
      (item.isaMap = true → EventReadable item) := by
  unfold PinballClient.processUiEvent
  cases hmap : item.isaMap with
  | false => exact iff_of_true (definedFrom_thrown _ c) (fun h => nomatch h)
  | true =>
      simp only [Bool.true_eq_false, if_false, forall_const]
      rw [eventReadable_iff]
      refine definedFrom_lookup_iff (definedFrom_thrown _ c) ?_
      intro typeKey
      cases typeKey with
      | text data => exact definedFrom_text_type_iff
      | textChunks chunks =>
          refine iff_of_false (fun h => h _ c rfl) ?_
          rintro ⟨h, _⟩
          exact Bool.false_ne_true (h rfl)
      | _ =>
          refine iff_of_true (definedFrom_thrown _ c) ⟨nofun, ?_, ?_⟩
          · intro h
            cases h
          · intro h
            cases h

theorem definedFrom_pinball_iff {header : Header} {message : Option Item} {c : PinballClient} :
    DefinedFrom (PinballClient.handleIncomingMessage header message) c ↔
      (header.endpoint = kRpcEndpointUiEvent → UiEventReadable message) := by
  unfold PinballClient.handleIncomingMessage UiEventReadable
  by_cases hep : header.endpoint = kRpcEndpointUiEvent
  · rw [if_pos hep]
    cases message with
    | none =>
        refine iff_of_false (fun h => h _ c rfl) ?_
        intro h
        obtain ⟨_, hnone, _⟩ := h hep
        cases hnone
    | some item => simp [definedFrom_processUiEvent_iff, hep]
  · rw [if_neg hep]
    exact iff_of_true (definedFrom_pure () c) fun h => absurd h hep

section Packets

variable {cbor : Libcbor} {pending : List Byte} {header : Header} {message : Option Item}

/-- A packet that was received goes to the handler. -/
theorem loadd_bevRead_run (h : ClientBase.receive cbor pending = .ok (some (header, message)))
    (c : LoaddClient) :
    (LoaddClient.bevRead cbor pending true).run c
      = (LoaddClient.handleIncomingMessage header message).run
          { c with base := { c.base with rxBuf := pending } } := by
  have hbase := ClientBase.bevRead_run_eq_ok_iff (c := c.base).mpr ⟨h, rfl⟩
  have hread : (LoaddClient.onBase (ClientBase.bevRead cbor pending true)).run c
      = .ok (some (header, message)) { c with base := { c.base with rxBuf := pending } } := by
    simp only [LoaddClient.onBase, EStateM.run] at hbase ⊢
    rw [hbase]
  exact run_bind_of_ok hread

theorem pinball_bevRead_run (h : ClientBase.receive cbor pending = .ok (some (header, message)))
    (c : PinballClient) :
    (PinballClient.bevRead cbor pending true).run c
      = (PinballClient.handleIncomingMessage header message).run
          { c with base := { c.base with rxBuf := pending } } := by
  have hbase := ClientBase.bevRead_run_eq_ok_iff (c := c.base).mpr ⟨h, rfl⟩
  have hread : (PinballClient.onBase (ClientBase.bevRead cbor pending true)).run c
      = .ok (some (header, message)) { c with base := { c.base with rxBuf := pending } } := by
    simp only [PinballClient.onBase, EStateM.run] at hbase ⊢
    rw [hbase]
  exact run_bind_of_ok hread

end Packets

/-- What the clients of the GUI do with a packet is defined if and only if the
message in it can be read as far as they get. -/
theorem guiHandlers_defined_iff (cbor : Libcbor) (pending : List Byte) (header : Header)
    (message : Option Item) (h : ClientBase.receive cbor pending = .ok (some (header, message)))
    (loadd : LoaddClient) (pinball : PinballClient) :
    (DefinedFrom (LoaddClient.bevRead cbor pending true) loadd ↔
        (header.endpoint = kRpcEndpointMeasurement → MeasurementReadable message)) ∧
      (DefinedFrom (PinballClient.bevRead cbor pending true) pinball ↔
        (header.endpoint = kRpcEndpointUiEvent → UiEventReadable message)) := by
  constructor
  · rw [← definedFrom_loadd_iff (c := { loadd with base := { loadd.base with rxBuf := pending } })]
    unfold DefinedFrom
    rw [loadd_bevRead_run h]
  · rw [← definedFrom_pinball_iff
      (c := { pinball with base := { pinball.base with rxBuf := pending } })]
    unfold DefinedFrom
    rw [pinball_bevRead_run h]

/-- A header that announces a measurement, and nothing behind it. -/
def bareMeasurement : List Byte := [0x00, 0x01, 0x08, 0x00, 0x10, 0x00, 0x00, 0x00]

/-- A header without a payload is received as a message without an item. -/
theorem guiHandlers_defined_iff_bare :
    (DefinedFrom (LoaddClient.bevRead (.ofTable [] (fun _ => []) (by decide)) bareMeasurement true)
        ⟨⟨0, [], []⟩, [], []⟩ ↔
      ((Header.read bareMeasurement).endpoint = kRpcEndpointMeasurement →
        MeasurementReadable none)) ∧
      (DefinedFrom (PinballClient.bevRead (.ofTable [] (fun _ => []) (by decide)) bareMeasurement
          true) ⟨⟨0, [], []⟩, true, [], (0, 0)⟩ ↔
        ((Header.read bareMeasurement).endpoint = kRpcEndpointUiEvent → UiEventReadable none)) :=
  guiHandlers_defined_iff _ bareMeasurement _ none rfl _ _

/-- The handler of measurements looks into it. -/
theorem not_defined_bareMeasurement :
    ¬ DefinedFrom (LoaddClient.bevRead (.ofTable [] (fun _ => []) (by decide)) bareMeasurement true)
      ⟨⟨0, [], []⟩, [], []⟩ := by
  intro h
  exact h "cbor_isa_map" ⟨⟨0, bareMeasurement, []⟩, [], []⟩ rfl

end Rpc
