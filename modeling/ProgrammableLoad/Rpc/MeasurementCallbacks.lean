/-
# `Rpc.MeasurementCallbacks` — who is told about measurements

Whoever wants the measurements of loadd registers a callback with the client
and gets a token, which takes the callback out again.  The counter behind the
tokens is 32 bits wide and wraps around, so that the client looks for a value
that no other callback has.

While a token is free the search ends, and the table holds what was added and
not removed since, `tokens_fresh_iff`.  The home screen, which keeps one token
and forgets it with the callback, is registered once at most, `registered_along`.
-/
import ProgrammableLoad.Rpc.LoaddClient
import ProgrammableLoad.Theory.Runs
import ProgrammableLoad.Theory.Tokens

namespace Rpc

open Cpp Program Tokens

/-- The members of the client that take part in registration. -/
structure MeasurementCallbacks (Cb : Type) where
  measurementCallbacks : Callbacks 32 Cb
  nextMeasurementCallbackToken : BitVec 32

namespace MeasurementCallbacks

variable {Cb : Type}

/-! ## Registration -/

/-- The members as they are initialised. -/
def initial : MeasurementCallbacks Cb := ⟨∅, 0⟩

/-- `do { token = ++nextMeasurementCallbackToken; } while(…);`, nothing for a
loop that does not end. -/
def nextToken (c : MeasurementCallbacks Cb) : Option (BitVec 32) :=
  draw (taken c.measurementCallbacks) (2 ^ 32) c.nextMeasurementCallbackToken

def addMeasurementCallback (cb : Cb) : EStateM Fault (MeasurementCallbacks Cb) (BitVec 32) := do
  match (← get).nextToken with
  | none => throw (.undefined "do while")
  | some token => do
      modify fun c => { c with
        nextMeasurementCallbackToken := token
        measurementCallbacks := emplace c.measurementCallbacks token cb }
      return token

/-- Whether the callback was removed. -/
def removeMeasurementCallback (token : BitVec 32) :
    EStateM Fault (MeasurementCallbacks Cb) Bool := do
  let removed := decide (token ∈ (← get).measurementCallbacks)
  modify fun c => { c with measurementCallbacks := c.measurementCallbacks.erase token }
  return removed

/-! ## Runs -/

inductive Call (Cb : Type) where
  | add (cb : Cb)
  | remove (token : BitVec 32)

inductive Answer where
  | token (token : BitVec 32)
  | removed (removed : Bool)

def step : Call Cb → EStateM Fault (MeasurementCallbacks Cb) Answer
  | .add cb => return .token (← addMeasurementCallback cb)
  | .remove token => return .removed (← removeMeasurementCallback token)

/-- The client with the calls it got and what it answered. -/
abbrev Recorded (Cb : Type) := MeasurementCallbacks Cb × List (Call Cb × Answer)

/-- What a call did to the table. -/
def entry : Call Cb × Answer → List (Entry (BitVec 32) Cb)
  | (.add cb, .token token) => [.added token cb]
  | (.remove token, _) => [.removed token]
  | (.add _, .removed _) => []

def history (log : List (Call Cb × Answer)) : List (Entry (BitVec 32) Cb) := log.flatMap entry

/-- A callback that is added gets a token that is not zero and not in use, and
a removal says whether the token was in use.  After the call the table holds
under each token the callback that was added with it and not removed since,
and nothing else. -/
structure Fresh (s : Recorded Cb) (x : Call Cb) (w : Answer) (t : Recorded Cb) : Prop where
  added : ∀ cb, x = .add cb → ∃ token, w = .token token ∧ token ≠ 0 ∧
    ∀ cb', ¬ Installed (history s.2) token cb'
  removed : ∀ token, x = .remove token → ∃ removed, w = .removed removed ∧
    (removed = true ↔ ∃ cb, Installed (history s.2) token cb)
  holds : Holds t.1.measurementCallbacks (history t.2)

/-- There is a token for the callback that is added. -/
def Room (s : Recorded Cb) (x : Call Cb) : Prop :=
  ∀ cb, x = .add cb → s.1.measurementCallbacks.entries.length < 2 ^ 32 - 1

/-! ## One call -/

section Step

variable {c : MeasurementCallbacks Cb} {s t : Recorded Cb} {token : BitVec 32}

theorem nextToken_isSome_iff (h : 0 ∉ c.measurementCallbacks) :
    (∃ token, c.nextToken = some token) ↔
      c.measurementCallbacks.entries.length < 2 ^ 32 - 1 := by
  rw [nextToken, draw_taken_isSome_iff h]
  omega

/-- A search that takes more than a period of the counter never ends. -/
theorem nextToken_eq_none (h : c.nextToken = none) (turns : Nat) :
    draw (taken c.measurementCallbacks) turns c.nextMeasurementCallbackToken = none :=
  draw_eq_none h turns

theorem nextToken_free (h : c.nextToken = some token) :
    token ≠ 0 ∧ token ∉ c.measurementCallbacks :=
  taken_eq_false_iff.mp (draw_accepted h)

theorem addMeasurementCallback_run (h : c.nextToken = some token) (cb : Cb) :
    (addMeasurementCallback cb).run c = .ok token
      ⟨emplace c.measurementCallbacks token cb, token⟩ := by
  rw [addMeasurementCallback, run_get_bind, h]
  rfl

theorem addMeasurementCallback_run_of_none (h : c.nextToken = none) (cb : Cb) :
    (addMeasurementCallback cb).run c = .error (.undefined "do while") c := by
  rw [addMeasurementCallback, run_get_bind, h]
  rfl

/-- Between two calls: zero is no token, and the table holds what is
installed. -/
structure Inv (s : Recorded Cb) : Prop where
  zero : 0 ∉ s.1.measurementCallbacks
  holds : Holds s.1.measurementCallbacks (history s.2)

theorem inv_initial : Inv ((initial, []) : Recorded Cb) where
  zero := AList.notMem_empty 0
  holds := holds_empty

theorem history_snoc (log : List (Call Cb × Answer)) (x : Call Cb) (w : Answer) :
    history (log ++ [(x, w)]) = history log ++ entry (x, w) := by
  rw [history, List.flatMap_append, List.flatMap_singleton, history]

theorem Inv.takes (h : Inv s) {x : Call Cb} (hroom : Room s x) :
    ∃ w t, (recorded step x).run s = .ok w t ∧ Fresh s x w t ∧ Inv t := by
  obtain ⟨c, log⟩ := s
  cases x with
  | add cb =>
      obtain ⟨token, htoken⟩ := (nextToken_isSome_iff h.zero).mpr (hroom cb rfl)
      obtain ⟨hzero, hfree⟩ := nextToken_free htoken
      have hrun : (step (.add cb)).run c = .ok (.token token)
          ⟨emplace c.measurementCallbacks token cb, token⟩ := by
        rw [step, run_bind_of_ok (addMeasurementCallback_run htoken cb)]
        rfl
      have hholds := h.holds.emplace hfree cb
      refine ⟨_, _, recorded_run_of_ok hrun log, ⟨?_, nofun, ?_⟩, ⟨?_, ?_⟩⟩
      · intro cb' _
        exact ⟨token, rfl, hzero, h.holds.notMem_iff.mp hfree⟩
      · rw [history_snoc]
        exact hholds
      · exact notMem_emplace h.zero hzero
      · rw [history_snoc]
        exact hholds
  | remove token =>
      have hrun : (step (.remove token)).run c
          = .ok (.removed (decide (token ∈ c.measurementCallbacks)))
            { c with measurementCallbacks := c.measurementCallbacks.erase token } := rfl
      have hholds := h.holds.erase token
      refine ⟨_, _, recorded_run_of_ok hrun log, ⟨nofun, ?_, ?_⟩, ⟨?_, ?_⟩⟩
      · rintro _ ⟨⟩
        refine ⟨_, rfl, ?_⟩
        rw [decide_eq_true_iff]
        exact h.holds.mem_iff
      · rw [history_snoc]
        exact hholds
      · exact notMem_erase h.zero
      · rw [history_snoc]
        exact hholds

/-- Without a free token the search does not end. -/
theorem Inv.room (h : Inv s) {x : Call Cb} {w : Answer} (hrun : (recorded step x).run s = .ok w t) :
    Room s x := by
  rintro cb rfl
  rw [← nextToken_isSome_iff h.zero, ← Option.isSome_iff_exists, ← Option.ne_none_iff_isSome]
  intro hnone
  have hstep := (recorded_run_eq_ok hrun).1
  rw [step, run_bind_of_error (addMeasurementCallback_run_of_none hnone cb)] at hstep
  cases hstep

end Step

/-! ## Every run -/

/-- In the runs in which a token is free whenever a callback is added, and in no
others, every call returns and does what it should. -/
theorem tokens_fresh_iff (calls : List (Call Cb)) :
    Along (recorded step) Fresh (initial, []) calls ↔
      Wherever (recorded step) Room (initial, []) calls :=
  along_iff_wherever (fun _ _ h hroom => h.takes hroom) (fun _ _ _ _ h hrun _ => h.room hrun)
    inv_initial

end MeasurementCallbacks

/-! ## The home screen -/

/-- The home screen with the client that it shares with others. -/
structure HomeScreen (Cb : Type) where
  client : MeasurementCallbacks Cb
  measurementCallbackToken : BitVec 32

namespace HomeScreen

open MeasurementCallbacks

variable {Cb : Type}

/-- What works on the client alone. -/
def onClient {α : Type} (m : EStateM Fault (MeasurementCallbacks Cb) α) :
    EStateM Fault (HomeScreen Cb) α := fun s =>
  match m.run s.client with
  | .ok a c => .ok a { s with client := c }
  | .error e c => .error e { s with client := c }

def removeMeasurementCallback : EStateM Fault (HomeScreen Cb) Unit := do
  let token := (← get).measurementCallbackToken
  if token = 0 then
    return
  else do
    let _ ← onClient (MeasurementCallbacks.removeMeasurementCallback token)
    modify fun s => { s with measurementCallbackToken := 0 }

/-- `cb` is the callback that sets the labels. -/
def installMeasurementCallback (cb : Cb) : EStateM Fault (HomeScreen Cb) Unit := do
  if (← get).measurementCallbackToken ≠ 0 then
    removeMeasurementCallback
  let token ← onClient (addMeasurementCallback cb)
  modify fun s => { s with measurementCallbackToken := token }

/-- What happens to the client while there is a home screen. -/
inductive Event (Cb : Type) where
  | install
  | remove
  | other (call : Call Cb)

def step (cb : Cb) : Event Cb → EStateM Fault (HomeScreen Cb) Unit
  | .install => installMeasurementCallback cb
  | .remove => removeMeasurementCallback
  | .other call => do
      let _ ← onClient (MeasurementCallbacks.step call)

/-- There is a token for what is added; the others add callbacks of their own
and leave the home screen's alone. -/
def Permitted (cb : Cb) (s : HomeScreen Cb) : Event Cb → Prop
  | .install => s.client.measurementCallbacks.entries.length < 2 ^ 32 - 1
  | .remove => True
  | .other (.add cb') => cb' ≠ cb ∧ s.client.measurementCallbacks.entries.length < 2 ^ 32 - 1
  | .other (.remove token) => token = 0 ∨ token ≠ s.measurementCallbackToken

/-- The home screen's callback is in the table under its token, if it has one,
and nowhere else. -/
structure Sole (cb : Cb) (s : HomeScreen Cb) : Prop where
  zero : 0 ∉ s.client.measurementCallbacks
  lookup_iff : ∀ token, s.client.measurementCallbacks.lookup token = some cb ↔
    token ≠ 0 ∧ token = s.measurementCallbackToken

section Step

variable {cb : Cb} {s t : HomeScreen Cb} {c : MeasurementCallbacks Cb} {token : BitVec 32}

theorem onClient_run {α : Type} {m : EStateM Fault (MeasurementCallbacks Cb) α} {a : α}
    (h : m.run s.client = .ok a c) : (onClient m).run s = .ok a { s with client := c } := by
  show onClient m s = _
  simp only [onClient, h]

/-- What a home screen without a token is left with. -/
def removed (s : HomeScreen Cb) : HomeScreen Cb :=
  if s.measurementCallbackToken = 0 then s else
    ⟨{ s.client with measurementCallbacks :=
      s.client.measurementCallbacks.erase s.measurementCallbackToken }, 0⟩

theorem removeMeasurementCallback_run (s : HomeScreen Cb) :
    removeMeasurementCallback.run s = .ok () s.removed := by
  rw [removeMeasurementCallback, run_get_bind, removed]
  by_cases hzero : s.measurementCallbackToken = 0
  · rw [if_pos hzero, if_pos hzero]
    rfl
  · rw [if_neg hzero, if_neg hzero]
    rfl

theorem removed_token (s : HomeScreen Cb) : s.removed.measurementCallbackToken = 0 := by
  rw [removed]
  split
  · assumption
  · rfl

theorem Sole.removed (h : Sole cb s) : Sole cb s.removed := by
  rw [HomeScreen.removed]
  split
  · exact h
  · constructor
    · exact notMem_erase h.zero
    · intro token
      rw [Table.lookup_erase_eq_some_iff, h.lookup_iff]
      constructor
      · rintro ⟨hne, _, heq⟩
        exact absurd heq hne
      · rintro ⟨hne, heq⟩
        exact absurd heq hne

theorem Sole.install (h : Sole cb s) (hmine : s.measurementCallbackToken = 0)
    (hzero : token ≠ 0) (hfree : token ∉ s.client.measurementCallbacks) :
    Sole cb ⟨⟨emplace s.client.measurementCallbacks token cb, token⟩, token⟩ := by
  constructor
  · exact notMem_emplace h.zero hzero
  · intro other
    rw [lookup_emplace_eq_some_iff hfree, h.lookup_iff, hmine]
    constructor
    · rintro (⟨rfl, _⟩ | ⟨hne, heq⟩)
      · exact ⟨hzero, rfl⟩
      · exact absurd heq hne
    · rintro ⟨_, rfl⟩
      exact .inl ⟨rfl, rfl⟩

theorem Sole.add (h : Sole cb s) {cb' : Cb} (hcb : cb' ≠ cb)
    (hzero : token ≠ 0) (hfree : token ∉ s.client.measurementCallbacks) :
    Sole cb { s with client := ⟨emplace s.client.measurementCallbacks token cb', token⟩ } := by
  constructor
  · exact notMem_emplace h.zero hzero
  · intro other
    rw [lookup_emplace_eq_some_iff hfree, h.lookup_iff]
    exact or_iff_right fun heq => hcb heq.2.symm

theorem Sole.erase (h : Sole cb s) (htoken : token = 0 ∨ token ≠ s.measurementCallbackToken) :
    Sole cb { s with
      client.measurementCallbacks := s.client.measurementCallbacks.erase token } := by
  constructor
  · exact notMem_erase h.zero
  · intro other
    rw [Table.lookup_erase_eq_some_iff, h.lookup_iff]
    refine and_iff_right_of_imp ?_
    rintro ⟨hne, rfl⟩ rfl
    exact htoken.elim hne fun h => h rfl

theorem length_removed_le (s : HomeScreen Cb) :
    s.removed.client.measurementCallbacks.entries.length
      ≤ s.client.measurementCallbacks.entries.length := by
  rw [HomeScreen.removed]
  split
  · exact Nat.le_refl _
  · exact (List.kerase_sublist _ _).length_le

theorem installMeasurementCallback_run (s : HomeScreen Cb)
    (h : s.removed.client.nextToken = some token) :
    (installMeasurementCallback cb).run s = .ok ()
      ⟨⟨emplace s.removed.client.measurementCallbacks token cb, token⟩, token⟩ := by
  have hadd : (onClient (addMeasurementCallback cb) >>= fun token =>
      modify fun s => { s with measurementCallbackToken := token }).run s.removed
        = .ok () ⟨⟨emplace s.removed.client.measurementCallbacks token cb, token⟩, token⟩ := by
    rw [run_bind_of_ok (onClient_run (addMeasurementCallback_run h cb))]
    rfl
  rw [installMeasurementCallback, run_get_bind]
  by_cases hzero : s.measurementCallbackToken = 0
  · have hsame : s.removed = s := by
      rw [HomeScreen.removed, if_pos hzero]
    rw [hsame] at hadd ⊢
    simp only [hzero, ne_eq, not_true_eq_false, if_false]
    exact hadd
  · simp only [hzero, ne_eq, not_false_eq_true, if_true]
    rw [run_bind_of_ok (removeMeasurementCallback_run s)]
    exact hadd

end Step

/-! ## Every run of the home screen -/

/-- The home screen has the registration that it asked for last. -/
structure Registered (cb : Cb) (_ : HomeScreen Cb) (e : Event Cb) (_ : Unit) (t : HomeScreen Cb) :
    Prop where
  sole : Sole cb t
  installed : e = .install → t.measurementCallbackToken ≠ 0
  removed : e = .remove → t.measurementCallbackToken = 0

theorem Sole.takes {cb : Cb} {s : HomeScreen Cb} (h : Sole cb s) {e : Event Cb}
    (he : Permitted cb s e) :
    ∃ w t, (step cb e).run s = .ok w t ∧ Registered cb s e w t ∧ Sole cb t := by
  cases e with
  | install =>
      have hroom := Nat.lt_of_le_of_lt (length_removed_le s) he
      obtain ⟨token, htoken⟩ := (nextToken_isSome_iff h.removed.zero).mpr hroom
      obtain ⟨hzero, hfree⟩ := nextToken_free htoken
      have hsole := h.removed.install (removed_token s) hzero hfree
      exact ⟨_, _, installMeasurementCallback_run s htoken, ⟨hsole, fun _ => hzero, nofun⟩, hsole⟩
  | remove =>
      have hsole := h.removed
      exact ⟨_, _, removeMeasurementCallback_run s,
        ⟨hsole, nofun, fun _ => removed_token s⟩, hsole⟩
  | other call =>
      cases call with
      | add cb' =>
          obtain ⟨hcb, hroom⟩ := he
          obtain ⟨token, htoken⟩ := (nextToken_isSome_iff h.zero).mpr hroom
          obtain ⟨hzero, hfree⟩ := nextToken_free htoken
          have hsole := h.add hcb hzero hfree
          refine ⟨(), _, ?_, ⟨hsole, nofun, nofun⟩, hsole⟩
          have hstep : (MeasurementCallbacks.step (.add cb')).run s.client
              = .ok (.token token) ⟨emplace s.client.measurementCallbacks token cb', token⟩ := by
            rw [MeasurementCallbacks.step, run_bind_of_ok (addMeasurementCallback_run htoken cb')]
            rfl
          rw [step, run_bind_of_ok (onClient_run hstep)]
          rfl
      | remove token =>
          have hsole := h.erase he
          exact ⟨(), _, rfl, ⟨hsole, nofun, nofun⟩, hsole⟩

/-- The members as they are initialised. -/
def initial : HomeScreen Cb := ⟨.initial, 0⟩

theorem registered_along (cb : Cb) {es : List (Event Cb)}
    (h : Wherever (step cb) (Permitted cb) initial es) :
    Along (step cb) (Registered cb) initial es := by
  have hinitial : Sole cb initial := by
    refine ⟨AList.notMem_empty 0, ?_⟩
    intro token
    refine iff_of_false (by simp [initial, MeasurementCallbacks.initial]) ?_
    rintro ⟨hne, heq⟩
    exact hne heq
  exact along_of_wherever (fun s e (hs : Sole cb s) he => hs.takes he) hinitial h

end HomeScreen

/-! ## What a measurement does -/

section Measurement

open LoaddClient

variable {Cb : Type}

/-- A loop over the tokens of the table calls each installed callback once. -/
theorem processMeasurement_calls {item : Cbor.Item} {meas : Measurement} {client : LoaddClient}
    {c : MeasurementCallbacks Cb} {history : List (Entry (BitVec 32) Cb)}
    (hholds : Holds c.measurementCallbacks history)
    (htokens : client.measurementCallbacks = c.measurementCallbacks.keys.map BitVec.toNat)
    (hmap : item.isaMap = true) (hmeas : readMeasurement item = .ok meas) :
    ∃ calls : List (BitVec 32), calls.Nodup ∧
      (∀ token, token ∈ calls ↔ ∃ cb, Installed history token cb) ∧
      (processMeasurement item).run client = .ok ()
        { client with invoked := client.invoked ++ calls.map fun token => (token.toNat, meas) } := by
  refine ⟨c.measurementCallbacks.keys, c.measurementCallbacks.keys_nodup, ?_, ?_⟩
  · intro token
    rw [← AList.mem_keys]
    exact hholds.mem_iff
  · rw [processMeasurement, hmap, hmeas]
    show EStateM.Result.ok () { client with
      invoked := client.invoked ++ client.measurementCallbacks.map fun token => (token, meas) } = _
    rw [htokens, List.map_map]
    rfl

end Measurement

end Rpc
