/-
# `Rpc.IndicatorOrder` — one message, and the order of the table

The loop of `Client::updateIndicators` applies each value as it comes to it.
What the table's order cannot change is the outcome of a message that is
applied in full: the entries name different indicators, and these own
different registers.

A message over which the loop throws is another matter, be it that a value is
refused, that an indicator has no channels for a color or that the bus does not
answer.  By then the entries before have been applied, and of the last one
perhaps some channels, so nothing is changed if and only if all of that asks
for what the indicators already show.
-/
import ProgrammableLoad.Cbor.Lookup
import ProgrammableLoad.Led.Registers
import ProgrammableLoad.Rpc.Indicators

namespace Rpc

open Cpp Cbor Cbor.Util Led LastWriter Program

/-! ## The requests of a message -/

/-- What an entry of the table asks the LED manager for. -/
def request (item : Item) (entry : String × Indicator) : Option (Indicator × Setting) :=
  match cborMapGet item entry.1 with
  | .ok (some value) =>
      match decodeValue entry.1 value with
      | .ok setting => some (entry.2, setting)
      | .error _ => none
  | _ => none

def requests (item : Item) (entries : List (String × Indicator)) : List (Indicator × Setting) :=
  entries.flatMap fun entry => (request item entry).toList

theorem request_fst {item : Item} {entry : String × Indicator} {x : Indicator × Setting}
    (h : request item entry = some x) : x.1 = entry.2 := by
  unfold request at h
  split at h
  · split at h
    · cases h
      rfl
    · cases h
  · cases h

theorem request_eq_some_iff {item : Item} {entry : String × Indicator} {setting : Setting} :
    request item entry = some (entry.2, setting) ↔
      ∃ value, cborMapGet item entry.1 = .ok (some value) ∧
        decodeValue entry.1 value = .ok setting := by
  unfold request
  cases cborMapGet item entry.1 with
  | error f => simp
  | ok found =>
      cases found with
      | none => simp
      | some value => cases hvalue : decodeValue entry.1 value <;> simp [hvalue]

theorem requests_map_fst_sublist (item : Item) (entries : List (String × Indicator)) :
    ((requests item entries).map Prod.fst).Sublist (entries.map Prod.snd) := by
  induction entries with
  | nil => exact .slnil
  | cons entry entries ih =>
      have hstep : requests item (entry :: entries)
          = (request item entry).toList ++ requests item entries := rfl
      rw [hstep]
      cases hrequest : request item entry with
      | none => exact ih.cons entry.2
      | some x =>
          rw [List.map_cons, ← request_fst hrequest]
          exact ih.cons_cons x.1

/-- The table has every indicator once. -/
theorem nodup_requests (table : IndicatorTable) (item : Item) :
    ((requests item table.entries).map Prod.fst).Nodup := by
  have hkIndicators : (kIndicators.map Prod.snd).Nodup := by decide
  have hentries : (table.entries.map Prod.snd).Nodup :=
    (table.perm.map Prod.snd).nodup_iff.mpr hkIndicators
  exact hentries.sublist (requests_map_fst_sublist item table.entries)

theorem requests_perm (table table' : IndicatorTable) (item : Item) :
    (requests item table.entries).Perm (requests item table'.entries) :=
  List.Perm.flatMap_right _ (table.perm.trans table'.perm.symm)

/-- A turn of the loop that returns has made its request, if it has one. -/
theorem updateIndicator_run_requests {led t : LedManager} {item : Item}
    {entry : String × Indicator} (h : (updateIndicator item entry).run led = .ok () t) :
    (∀ x ∈ (request item entry).toList, led.Takes x.1 x.2) ∧
      t = led.paintedAll (request item entry).toList := by
  obtain ⟨found, hfound, hset⟩ := run_ofExcept_bind_eq_ok.mp h
  cases found with
  | none =>
      cases hset
      simp [request, hfound, LedManager.paintedAll]
  | some value =>
      obtain ⟨setting, hsetting, hrun⟩ := run_ofExcept_bind_eq_ok.mp hset
      obtain ⟨htakes, _, rfl⟩ := LedManager.set_run_eq_ok_iff.mp hrun
      simp [request, hfound, hsetting, LedManager.paintedAll, htakes]

/-- A loop that returns has made the requests of its entries. -/
theorem forM_updateIndicator_requests {entries : List (String × Indicator)} {item : Item}
    {led t : LedManager} (h : (forM entries (updateIndicator item)).run led = .ok () t) :
    (∀ x ∈ requests item entries, led.Takes x.1 x.2) ∧
      t = led.paintedAll (requests item entries) := by
  induction entries generalizing led with
  | nil =>
      cases forM_nil_run_eq_ok.mp h
      exact ⟨by simp [requests], rfl⟩
  | cons entry entries ih =>
      obtain ⟨u, hentry, hrest⟩ := forM_cons_run_eq_ok.mp h
      obtain ⟨_, _, hhandler, _⟩ := updateIndicator_run_eq_ok hentry
      obtain ⟨htakes, hu⟩ := updateIndicator_run_requests hentry
      obtain ⟨htakes', ht⟩ := ih hrest
      have hstep : requests item (entry :: entries)
          = (request item entry).toList ++ requests item entries := rfl
      rw [hstep]
      constructor
      · intro x hx
        rcases List.mem_append.mp hx with hx | hx
        · exact htakes x hx
        · exact (LedManager.takes_congr (hhandler x.1)).mp (htakes' x hx)
      · rw [ht, hu, LedManager.paintedAll, LedManager.paintedAll, LedManager.paintedAll,
          List.foldl_append]

/-! ## A message that is applied -/

/-- If a message is applied in one order of the table, then in any other it is
applied as well and leaves the same registers. -/
theorem updateIndicators_order_independent (table table' : IndicatorTable) (item : Item)
    (led t : LedManager) (h : (updateIndicators table item).run led = .ok () t) :
    ∃ t', (updateIndicators table' item).run led = .ok () t' ∧ t'.reg = t.reg := by
  obtain ⟨t', ht'⟩ := (updateIndicators_returns_iff table').mpr
    ((updateIndicators_returns_iff table).mp ⟨t, h⟩)
  refine ⟨t', ht', ?_⟩
  obtain ⟨htakes, rfl⟩ := forM_updateIndicator_requests h
  obtain ⟨htakes', rfl⟩ := forM_updateIndicator_requests ht'
  refine LedManager.reg_paintedAll_congr htakes' htakes ?_
  intro i k _
  rw [lastOf_perm (nodup_requests table' item) (requests_perm table' table item)]

/-- A map with the status and trigger indicators. -/
def statusAndTriggerMap : LedMap where
  indices := fun which => match which with
    | .status => some [0]
    | .trigger => some [1]
    | _ => none
  index_lt := by
    intro which l h
    cases which <;> cases h <;> decide
  length_le := by
    intro which l h
    cases which <;> cases h <;> decide
  nodup := by
    intro which l h
    cases which <;> cases h <;> decide
  disjoint := by
    intro which which' l l' hne h h'
    cases which <;> cases h <;> cases which' <;> cases h' <;> simp at hne ⊢

/-- A driver with these two, both of them off. -/
def statusAndTrigger : LedManager := ⟨[some ⟨statusAndTriggerMap, fun _ => 0⟩], [], .nearest⟩

/-- The table from its end. -/
def IndicatorTable.reversed : IndicatorTable := ⟨kIndicators.reverse, List.reverse_perm _⟩

/-- Two indicators that are switched on, in two orders. -/
theorem updateIndicators_order_independent_two :
    ∃ t', (updateIndicators .reversed (.map true
        [(.ofString "status", .ofBool true), (.ofString "trigger", .ofBool true)])).run
          statusAndTrigger = .ok () t' ∧
      t'.reg = (statusAndTrigger.paintedAll
        [(.status, .brightness (.num 1)), (.trigger, .brightness (.num 1))]).reg :=
  updateIndicators_order_independent .listed .reversed _ statusAndTrigger _ rfl

/-! ## A message that is refused -/

/-- The values no indicator can be set to. -/
def Invalid : Item → Prop
  | .ctrl n => (Item.ctrl n).isBool = false
  | .float _ _ => False
  | .array _ items => items = [] ∨ 3 < items.length
  | _ => True

/-- The entry's key can be looked up, and has such a value. -/
def Refused (item : Item) (entry : String × Indicator) : Prop :=
  ∃ definite pairs value, item = .map definite pairs ∧ Searchable entry.1 pairs ∧
    valueOf entry.1 pairs = some value ∧ Invalid value

/-- A message over which the endpoint throws leaves all registers as they were. -/
def AllOrNothing (table : IndicatorTable) (item : Item) (led : LedManager) : Prop :=
  ∀ e t, (updateIndicators table item).run led = .error (.thrown e) t → t.reg = led.reg

/-- On this bus the loop throws at the entry, after these writes of a driver:
its value is refused, or its request throws. -/
def StopsAfter (led : LedManager) (bus : List (Option BusError)) (item : Item)
    (entry : String × Indicator) (this : Nat) (ws : List (Nat × Byte)) : Prop :=
  (Refused item entry ∧ ws = []) ∨
    ∃ setting, request item entry = some (entry.2, setting) ∧
      led.ThrowsAfter bus entry.2 setting this ws

/-- Where the loop comes to an entry at which it throws, the entries before it
have asked for what their indicators show, and so have the writes of its own. -/
def StopsUnchanged (table : IndicatorTable) (item : Item) (led : LedManager) : Prop :=
  ∀ before entry after, table.entries = before ++ entry :: after →
    Updatable led item before → ∀ this ws,
    StopsAfter led (led.bus.drop (before.map (writeCount led item)).sum) item entry this ws →
    (∀ x ∈ requests item before, led.Shows x.1 x.2) ∧
      ∀ w ∈ ws, led.reg this (pwm w.1) = some w.2

theorem floatGetFloat_bind_ne_thrown {α : Type} {x : Item} {f : Double → Except Fault α}
    (h : ∀ v e, f v ≠ .error (.thrown e)) (e : Exception) :
    (x.floatGetFloat >>= f) ≠ .error (.thrown e) := by
  cases x with
  | float width v => exact h v e
  | _ =>
      intro hx
      cases hx

/-- Of the arrays only the empty and the long ones are refused. -/
theorem decodeColor_throws_iff (definite : Bool) {items : List Item} :
    (∃ e, decodeColor (.array definite items) = .error (.thrown e)) ↔
      items = [] ∨ 3 < items.length := by
  have hdone : ∀ (c : Color) (e : Exception), (pure c : Except Fault Color) ≠ .error (.thrown e) :=
    fun _ _ h => nomatch h
  rcases items with _ | ⟨x0, _ | ⟨x1, _ | ⟨x2, _ | ⟨x3, items⟩⟩⟩⟩
  · exact iff_of_true ⟨_, rfl⟩ (.inl rfl)
  · refine iff_of_false ?_ (by simp)
    rintro ⟨e, he⟩
    exact floatGetFloat_bind_ne_thrown (fun c0 => hdone _) e he
  · refine iff_of_false ?_ (by simp)
    rintro ⟨e, he⟩
    exact floatGetFloat_bind_ne_thrown
      (fun c1 => floatGetFloat_bind_ne_thrown fun c0 => hdone _) e he
  · refine iff_of_false ?_ (by simp)
    rintro ⟨e, he⟩
    exact floatGetFloat_bind_ne_thrown (fun c2 => floatGetFloat_bind_ne_thrown
      fun c1 => floatGetFloat_bind_ne_thrown fun c0 => hdone _) e he
  · exact iff_of_true ⟨_, rfl⟩ (.inr (by simp))

theorem decodeValue_throws_iff (key : String) {value : Item} :
    (∃ e, decodeValue key value = .error (.thrown e)) ↔ Invalid value := by
  cases value with
  | ctrl n =>
      cases hb : (Item.ctrl n).isBool with
      | true =>
          obtain ⟨v, hv⟩ := decodeValue_of_isBool key hb
          simp [Invalid, hb, hv]
      | false =>
          refine iff_of_true ⟨.runtimeError "unsupported float-type value", ?_⟩ hb
          simp [decodeValue, Item.isaFloatCtrl, Item.floatCtrlIsCtrl, hb, Item.isFloat, bind,
            Except.bind, throw, throwThe, MonadExceptOf.throw]
  | float width v =>
      have hfloat : (Item.float width v).isFloat = true := rfl
      obtain ⟨v', hv⟩ := decodeValue_of_isFloat key hfloat
      simp [Invalid, hv]
  | array definite items =>
      rw [show Invalid (.array definite items) ↔ items = [] ∨ 3 < items.length from Iff.rfl,
        ← decodeColor_throws_iff definite]
      refine exists_congr fun e => ?_
      show (decodeColor (.array definite items) >>= fun c => pure (Setting.color c)) = _ ↔ _
      cases decodeColor (.array definite items) with
      | ok c =>
          refine iff_of_false ?_ ?_
          · intro h
            cases h
          · intro h
            cases h
      | error e' =>
          show Except.error e' = _ ↔ _
          simp
  | _ => exact iff_of_true ⟨_, rfl⟩ trivial

theorem refused_iff {item : Item} {entry : String × Indicator} :
    Refused item entry ↔ ∃ value e, cborMapGet item entry.1 = .ok (some value) ∧
      decodeValue entry.1 value = .error (.thrown e) := by
  constructor
  · rintro ⟨definite, pairs, value, rfl, hsearch, hvalue, hinvalid⟩
    obtain ⟨e, he⟩ := (decodeValue_throws_iff entry.1).mpr hinvalid
    exact ⟨value, e, cborMapGet_eq_ok_iff.mpr ⟨definite, pairs, rfl, hsearch, hvalue.symm⟩, he⟩
  · rintro ⟨value, e, hget, he⟩
    obtain ⟨definite, pairs, rfl, hsearch, hvalue⟩ := cborMapGet_eq_ok_iff.mp hget
    exact ⟨definite, pairs, value, rfl, hsearch, hvalue.symm,
      (decodeValue_throws_iff entry.1).mp ⟨e, he⟩⟩

theorem updateIndicator_run_of_refused {item value : Item} {entry : String × Indicator}
    {led : LedManager} {e : Exception} (hget : cborMapGet item entry.1 = .ok (some value))
    (he : decodeValue entry.1 value = .error (.thrown e)) :
    (updateIndicator item entry).run led = .error (.thrown e) led := by
  unfold updateIndicator
  rw [hget]
  show (MonadExcept.ofExcept (decodeValue entry.1 value) >>= LedManager.set entry.2).run led = _
  rw [he]
  rfl

theorem updateIndicator_run_of_decoded {item value : Item} {entry : String × Indicator}
    {led : LedManager} {setting : Setting} (hget : cborMapGet item entry.1 = .ok (some value))
    (hvalue : decodeValue entry.1 value = .ok setting) :
    (updateIndicator item entry).run led = (LedManager.set entry.2 setting).run led := by
  unfold updateIndicator
  rw [hget]
  show (MonadExcept.ofExcept (decodeValue entry.1 value) >>= LedManager.set entry.2).run led = _
  rw [hvalue]
  rfl

/-- Only a value that was found makes the loop throw. -/
theorem exists_value_of_throws {item : Item} {entry : String × Indicator} {led t : LedManager}
    {e : Exception} (h : (updateIndicator item entry).run led = .error (.thrown e) t) :
    ∃ value, cborMapGet item entry.1 = .ok (some value) := by
  unfold updateIndicator at h
  cases hget : cborMapGet item entry.1 with
  | error f =>
      rw [hget] at h
      cases h
      exact absurd hget (cborMapGet_ne_thrown item entry.1 e)
  | ok found =>
      cases found with
      | none =>
          rw [hget] at h
          cases h
      | some value => exact ⟨value, rfl⟩

/-- A turn of the loop throws over a value that is refused, or with its
request. -/
theorem updateIndicator_throws_iff {item : Item} {entry : String × Indicator} {led : LedManager}
    {regs : Nat → Register → Option Byte} :
    (∃ e t, (updateIndicator item entry).run led = .error (.thrown e) t ∧ t.reg = regs) ↔
      ∃ this ws, StopsAfter led led.bus item entry this ws ∧ (led.written this ws).reg = regs := by
  constructor
  · rintro ⟨e, t, hrun, rfl⟩
    obtain ⟨value, hget⟩ := exists_value_of_throws hrun
    cases hvalue : decodeValue entry.1 value with
    | error f =>
        unfold updateIndicator at hrun
        rw [hget] at hrun
        change (MonadExcept.ofExcept (decodeValue entry.1 value)
          >>= LedManager.set entry.2).run led = _ at hrun
        rw [hvalue] at hrun
        cases hrun
        exact ⟨0, [], .inl ⟨refused_iff.mpr ⟨value, e, hget, hvalue⟩, rfl⟩, rfl⟩
    | ok setting =>
        rw [updateIndicator_run_of_decoded hget hvalue] at hrun
        obtain ⟨this, ws, h, hreg⟩ := LedManager.set_run_throws_iff.mp ⟨e, t, hrun, rfl⟩
        have hrequest := request_eq_some_iff.mpr ⟨value, hget, hvalue⟩
        exact ⟨this, ws, .inr ⟨setting, hrequest, h⟩, hreg⟩
  · rintro ⟨this, ws, ⟨hrefused, rfl⟩ | ⟨setting, hrequest, h⟩, rfl⟩
    · obtain ⟨value, e, hget, he⟩ := refused_iff.mp hrefused
      exact ⟨e, led, updateIndicator_run_of_refused hget he, rfl⟩
    · obtain ⟨value, hget, hvalue⟩ := request_eq_some_iff.mp hrequest
      rw [updateIndicator_run_of_decoded hget hvalue]
      exact LedManager.set_run_throws_iff.mpr ⟨this, ws, h, rfl⟩

/-- The bus after a loop that returned. -/
theorem forM_updateIndicator_bus {entries : List (String × Indicator)} {item : Item}
    {led t : LedManager} (h : (forM entries (updateIndicator item)).run led = .ok () t) :
    t.bus = led.bus.drop (entries.map (writeCount led item)).sum := by
  induction entries generalizing led with
  | nil =>
      cases forM_nil_run_eq_ok.mp h
      rfl
  | cons entry entries ih =>
      obtain ⟨u, hentry, hrest⟩ := forM_cons_run_eq_ok.mp h
      obtain ⟨_, _, hhandler, hbus⟩ := updateIndicator_run_eq_ok hentry
      have hcount : entries.map (writeCount u item) = entries.map (writeCount led item) :=
        List.map_congr_left fun e _ => writeCount_congr item (hhandler e.2)
      rw [ih hrest, hbus, hcount, List.drop_drop, List.map_cons, List.sum_cons]

/-- A turn after some others throws where it would have thrown by itself. -/
theorem stopsAfter_congr {led u : LedManager} {bus : List (Option BusError)} {item : Item}
    {entry : String × Indicator} {this : Nat} {ws : List (Nat × Byte)}
    (hhandler : ∀ which, u.handler which = led.handler which)
    (hrounding : u.rounding = led.rounding) :
    StopsAfter u bus item entry this ws ↔ StopsAfter led bus item entry this ws := by
  simp only [StopsAfter, LedManager.throwsAfter_congr (hhandler _) hrounding]

/-- What the registers are when the loop throws at an entry. -/
theorem reg_stopped_iff (table : IndicatorTable) {item : Item} {led : LedManager}
    {bus : List (Option BusError)} {before after : List (String × Indicator)}
    {entry : String × Indicator} {this : Nat} {ws : List (Nat × Byte)}
    (hentries : table.entries = before ++ entry :: after)
    (htakes : ∀ x ∈ requests item before, led.Takes x.1 x.2)
    (h : StopsAfter led bus item entry this ws) :
    ((led.paintedAll (requests item before)).written this ws).reg = led.reg ↔
      (∀ x ∈ requests item before, led.Shows x.1 x.2) ∧
        ∀ w ∈ ws, led.reg this (pwm w.1) = some w.2 := by
  have hnodup := nodup_requests table item
  rw [hentries, requests, List.flatMap_append, List.map_append, List.nodup_append] at hnodup
  obtain ⟨hbefore, _, hdisjoint⟩ := hnodup
  rcases h with ⟨_, rfl⟩ | ⟨setting, hrequest, hthrows⟩
  · refine (LedManager.reg_paintedAll_eq_self_iff htakes hbefore).trans ?_
    exact (and_iff_left fun w hw => absurd hw List.not_mem_nil).symm
  · refine LedManager.reg_paintedAll_written_eq_self_iff htakes hbefore ?_ hthrows
    intro hmem
    refine hdisjoint entry.2 hmem entry.2 ?_ rfl
    rw [List.flatMap_cons, hrequest]
    exact List.mem_cons_self

/-- Indicator updates are all-or-nothing if and only if the loop throws before
anything has changed. -/
theorem allOrNothing_iff (table : IndicatorTable) (item : Item) (led : LedManager) :
    AllOrNothing table item led ↔ StopsUnchanged table item led := by
  have hstop : ∀ before u, (forM before (updateIndicator item)).run led = .ok () u →
      (∀ x ∈ requests item before, led.Takes x.1 x.2) ∧
        u = led.paintedAll (requests item before) ∧
        ∀ entry this ws, StopsAfter u u.bus item entry this ws ↔
          StopsAfter led (led.bus.drop (before.map (writeCount led item)).sum) item entry
            this ws := by
    intro before u hrun
    have hbus := forM_updateIndicator_bus hrun
    obtain ⟨htakes, rfl⟩ := forM_updateIndicator_requests hrun
    refine ⟨htakes, rfl, fun entry this ws => ?_⟩
    rw [hbus]
    exact stopsAfter_congr (LedManager.handler_paintedAll _) (LedManager.rounding_paintedAll _)
  constructor
  · intro h before entry after hentries hbefore this ws hstops
    obtain ⟨u, hu⟩ := forM_updateIndicator_returns_iff.mpr hbefore
    obtain ⟨htakes, rfl, hcongr⟩ := hstop before u hu
    obtain ⟨e, t, hrun, hreg⟩ := updateIndicator_throws_iff.mpr
      ⟨this, ws, (hcongr entry this ws).mpr hstops, rfl⟩
    refine (reg_stopped_iff table hentries htakes hstops).mp ?_
    rw [← hreg]
    refine h e t ?_
    rw [updateIndicators, hentries]
    exact forM_run_eq_error_iff.mpr ⟨before, entry, after, _, rfl, hu, hrun⟩
  · intro h e t hrun
    obtain ⟨before, entry, after, u, hentries, hu, hentry⟩ := forM_run_eq_error_iff.mp hrun
    obtain ⟨htakes, rfl, hcongr⟩ := hstop before u hu
    obtain ⟨this, ws, hstops, hreg⟩ := updateIndicator_throws_iff.mp ⟨e, t, hentry, rfl⟩
    have hstops' := (hcongr entry this ws).mp hstops
    rw [← hreg]
    exact (reg_stopped_iff table hentries htakes hstops').mpr
      (h before entry after hentries (forM_updateIndicator_returns_iff.mp ⟨_, hu⟩) this ws hstops')

/-- The status indicator is switched on before the text for the trigger
indicator is refused. -/
theorem not_allOrNothing_text : ¬ AllOrNothing .listed
    (.map true [(.ofString "status", .ofBool true), (.ofString "trigger", .ofString "on")])
    statusAndTrigger := by
  intro h
  have hreg := h (.runtimeError "invalid value for key 'trigger', expected bool, float, or array")
    (statusAndTrigger.painted .status (.brightness (.num 1))) rfl
  have hdrives : statusAndTrigger.Drives .status 0 0 (pwm 0) := ⟨[0], 0, rfl, rfl, rfl⟩
  have hpwm := congrFun (congrFun hreg 0) (pwm 0)
  rw [LedManager.reg_painted_of_drives hdrives (LedManager.takes_brightness _)] at hpwm
  simp [Setting.duty, LedManager.reg, statusAndTrigger] at hpwm

end Rpc
