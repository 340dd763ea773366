/-
# `Theory.Feed` — a subscriber that turns its feed on and off

A subscriber asks a publisher for messages or for none, and the publisher sends
what it publishes while the last request it heard was for messages.  Requests
and messages are on their way for as long as they like, each kind in order; the
publisher hears one request at a time, and of the messages that arrive together
the subscriber takes the first and loses the others.

Whatever the interleaving, once no request is on its way the publisher does
what the subscriber wants, `agrees_after`, and every message is received at
most once and in order, `received_after`.  While the feed is off nothing is
taken that counts, `refused_after`; and while it is on and messages arrive one
by one, nothing is lost, `complete_after`.
-/
import Mathlib.Data.List.Sublists

namespace Feeds

variable {M : Type}

/-- The subscriber with what it wants, its requests that are on their way,
whether the publisher sends, the messages on their way, and what was received,
each with what the subscriber wanted then. -/
structure Feed (M : Type) where
  wants : Bool
  requests : List Bool
  serves : Bool
  inFlight : List M
  received : List (Bool × M)

/-- `receives more` is the arrival of a message together with up to `more`
others. -/
inductive Event (M : Type) where
  | asks (wants : Bool)
  | hears
  | publishes (m : M)
  | receives (more : Nat)

namespace Feed

def hear (f : Feed M) : Feed M :=
  match f.requests with
  | [] => f
  | request :: requests => { f with serves := request, requests := requests }

def receive (f : Feed M) (more : Nat) : Feed M :=
  match f.inFlight with
  | [] => f
  | m :: later => { f with
      inFlight := later.drop more
      received := f.received ++ [(f.wants, m)] }

def step (f : Feed M) : Event M → Feed M
  | .asks wants => { f with wants := wants, requests := f.requests ++ [wants] }
  | .hears => f.hear
  | .publishes m => if f.serves then { f with inFlight := f.inFlight ++ [m] } else f
  | .receives more => f.receive more

def after (f : Feed M) (events : List (Event M)) : Feed M := events.foldl step f

/-- Nothing was asked for yet. -/
def off : Feed M := ⟨false, [], false, [], []⟩

/-- Nothing was asked for yet, and the publisher sends all the same. -/
def pushed : Feed M := ⟨false, [], true, [], []⟩

end Feed

/-- What was published, whether or not it was sent. -/
def published (events : List (Event M)) : List M :=
  events.filterMap fun
    | .publishes m => some m
    | _ => none

/-- Every message arrives by itself. -/
def OneByOne (events : List (Event M)) : Prop := ∀ more, .receives more ∈ events → more = 0

/-- Of some messages as many are lost as there are to lose. -/
theorem drop_length_take (l : List M) (n : Nat) : l.drop (l.take n).length = l.drop n := by
  rcases Nat.le_total n l.length with hle | hle
  · rw [List.length_take_of_le hle]
  · rw [List.take_of_length_le hle, List.drop_length, List.drop_of_length_le hle]

namespace Feed

variable {f : Feed M} {event : Event M} {events : List (Event M)} {listens : Prop}

theorem after_cons (f : Feed M) (event : Event M) (events : List (Event M)) :
    f.after (event :: events) = (f.step event).after events := rfl

theorem after_append (f : Feed M) (events later : List (Event M)) :
    f.after (events ++ later) = (f.after events).after later := List.foldl_append

/-- Where every input of a machine is at most one event, the feed goes along
with the machine. -/
theorem after_filterMap {ι : Type} (event : ι → Option (Event M)) (f : Feed M) (xs : List ι) :
    f.after (xs.filterMap event) = xs.foldl (fun f x => f.after ([x].filterMap event)) f := by
  induction xs generalizing f with
  | nil => rfl
  | cons x xs ih =>
      rw [List.foldl_cons, ← ih, ← after_append, ← List.filterMap_append]
      rfl

/-- An invariant of every step. -/
theorem after_keeps {I : Feed M → Prop} (h : ∀ event ∈ events, ∀ f, I f → I (f.step event))
    (hf : I f) : I (f.after events) := by
  induction events generalizing f with
  | nil => exact hf
  | cons event events ih =>
      exact ih (fun e he => h e (List.mem_cons_of_mem event he))
        (h event List.mem_cons_self f hf)

/-! ## Agreement -/

/-- The last request, the one the publisher heard if none is on its way, is
what the subscriber wants. -/
def Agrees (f : Feed M) : Prop := f.requests.getLastD f.serves = f.wants

theorem agrees_step (event : Event M) (h : f.Agrees) : (f.step event).Agrees := by
  obtain ⟨wants, requests, serves, inFlight, received⟩ := f
  cases event with
  | asks wants => exact List.getLastD_concat
  | hears =>
      cases requests with
      | nil => exact h
      | cons request requests =>
          rw [Agrees, List.getLastD_cons] at h
          exact h
  | publishes m => cases serves <;> exact h
  | receives more => cases inFlight <;> exact h

theorem agrees_after (events : List (Event M)) (h : f.Agrees) : (f.after events).Agrees :=
  after_keeps (fun event _ _ hf => agrees_step event hf) h

/-- With no request on its way. -/
theorem Agrees.serves_eq (h : f.Agrees) (hrequests : f.requests = []) : f.serves = f.wants := by
  rw [Agrees, hrequests] at h
  exact h

/-! ## Every message at most once, in order -/

/-- What was received and what is on its way. -/
def carried (f : Feed M) : List M := f.received.map Prod.snd ++ f.inFlight

theorem carried_receive (f : Feed M) (more : Nat) : (f.receive more).carried.Sublist f.carried := by
  obtain ⟨wants, requests, serves, inFlight, received⟩ := f
  cases inFlight with
  | nil => exact List.Sublist.refl _
  | cons m later =>
      show ((received ++ [(wants, m)]).map Prod.snd ++ later.drop more).Sublist
        (received.map Prod.snd ++ m :: later)
      rw [List.map_append, List.append_assoc]
      exact ((List.drop_sublist more later).cons_cons m).append_left _

theorem carried_step (f : Feed M) (event : Event M) :
    (f.step event).carried.Sublist (f.carried ++ published [event]) := by
  cases event with
  | asks wants => exact List.sublist_append_left _ _
  | hears =>
      rw [step, hear]
      cases f.requests with
      | nil => exact List.sublist_append_left _ _
      | cons request requests => exact List.sublist_append_left _ _
  | publishes m =>
      rw [step]
      cases f.serves with
      | false => exact List.sublist_append_left _ _
      | true =>
          show (f.received.map Prod.snd ++ (f.inFlight ++ [m])).Sublist _
          rw [← List.append_assoc]
          exact List.Sublist.refl _
  | receives more => exact (carried_receive f more).trans (List.sublist_append_left _ _)

theorem published_cons (event : Event M) (events : List (Event M)) :
    published (event :: events) = published [event] ++ published events := by
  cases event <;> rfl

theorem carried_after (f : Feed M) (events : List (Event M)) :
    (f.after events).carried.Sublist (f.carried ++ published events) := by
  induction events generalizing f with
  | nil => exact List.sublist_append_left _ _
  | cons event events ih =>
      rw [after_cons, published_cons, ← List.append_assoc]
      exact (ih (f.step event)).trans ((carried_step f event).append_right _)

/-- From a feed that has carried nothing yet. -/
theorem received_after (events : List (Event M)) (h : f.carried = []) :
    ((f.after events).received.map Prod.snd).Sublist (published events) := by
  have hcarried := carried_after f events
  rw [h, List.nil_append] at hcarried
  exact (List.sublist_append_left _ _).trans hcarried

/-! ## While the feed is off -/

/-- What the subscriber receives while it wants nothing. -/
theorem refused_after (hwants : f.wants = false) (hasks : .asks true ∉ events) :
    ∃ refused, (f.after events).received = f.received ++ refused ∧
      (∀ x ∈ refused, x.1 = false) ∧ (f.after events).wants = false := by
  induction events generalizing f with
  | nil => exact ⟨[], (List.append_nil _).symm, nofun, hwants⟩
  | cons event events ih =>
      have hhead := List.ne_of_not_mem_cons hasks
      have htail := List.not_mem_of_not_mem_cons hasks
      have hstep : (f.step event).wants = false ∧
          ∃ refused, (f.step event).received = f.received ++ refused ∧
            ∀ x ∈ refused, x.1 = false := by
        cases event with
        | asks wants =>
            refine ⟨?_, [], (List.append_nil _).symm, nofun⟩
            exact Bool.eq_false_iff.mpr fun hwants => hhead (congrArg _ hwants.symm)
        | hears =>
            rw [step, hear]
            cases f.requests with
            | nil => exact ⟨hwants, [], (List.append_nil _).symm, nofun⟩
            | cons request requests => exact ⟨hwants, [], (List.append_nil _).symm, nofun⟩
        | publishes m =>
            rw [step]
            cases f.serves with
            | false => exact ⟨hwants, [], (List.append_nil _).symm, nofun⟩
            | true => exact ⟨hwants, [], (List.append_nil _).symm, nofun⟩
        | receives more =>
            rw [step, receive]
            cases f.inFlight with
            | nil => exact ⟨hwants, [], (List.append_nil _).symm, nofun⟩
            | cons m later =>
                refine ⟨hwants, [(f.wants, m)], rfl, fun x hx => ?_⟩
                rw [List.mem_singleton.mp hx]
                exact hwants
      obtain ⟨hwants', refused, hreceived, hrefused⟩ := hstep
      obtain ⟨later, hlater, hlaterRefused, hlast⟩ := ih hwants' htail
      refine ⟨refused ++ later, ?_, ?_, hlast⟩
      · rw [after_cons, hlater, hreceived, List.append_assoc]
      · intro x hx
        exact (List.mem_append.mp hx).elim (hrefused x) (hlaterRefused x)

/-! ## While the feed is on -/

/-- The subscriber wants messages and gets them, also after what is on its way
to the publisher if this `listens`. -/
structure On (listens : Prop) (f : Feed M) : Prop where
  wants : f.wants = true
  serves : f.serves = true
  requests : listens → ∀ request ∈ f.requests, request = true

theorem on_step (hf : f.On listens) (hevent : event ≠ .asks false)
    (hhears : event = .hears → listens) : (f.step event).On listens := by
  obtain ⟨wants, requests, serves, inFlight, received⟩ := f
  obtain ⟨hwants, hserves, hrequests⟩ := hf
  cases event with
  | asks wants' =>
      have hwants' : wants' = true := (Bool.not_eq_false _).mp fun h => hevent (congrArg _ h)
      refine ⟨hwants', hserves, fun hlistens request hrequest => ?_⟩
      rcases List.mem_append.mp hrequest with hbefore | hlast
      · exact hrequests hlistens request hbefore
      · rw [List.mem_singleton.mp hlast]
        exact hwants'
  | hears =>
      cases requests with
      | nil => exact ⟨hwants, hserves, hrequests⟩
      | cons request requests =>
          exact ⟨hwants, hrequests (hhears rfl) request List.mem_cons_self,
            fun hlistens r hr => hrequests hlistens r (List.mem_cons_of_mem request hr)⟩
  | publishes m => cases serves <;> exact ⟨hwants, hserves, hrequests⟩
  | receives more => cases inFlight <;> exact ⟨hwants, hserves, hrequests⟩

/-- What is received is what was on its way and what was published, without
what is on its way still. -/
theorem complete_after (hf : f.On listens) (hasks : .asks false ∉ events)
    (hhears : .hears ∈ events → listens) (hone : OneByOne events) :
    ∃ taken, (f.after events).received = f.received ++ taken.map (true, ·) ∧
      taken ++ (f.after events).inFlight = f.inFlight ++ published events := by
  induction events generalizing f with
  | nil => exact ⟨[], (List.append_nil _).symm, (List.append_nil _).symm⟩
  | cons event events ih =>
      have hhead := List.ne_of_not_mem_cons hasks
      have htail := List.not_mem_of_not_mem_cons hasks
      have hon := on_step hf (Ne.symm hhead) fun hevent =>
        hhears (hevent ▸ List.mem_cons_self)
      have hstep : ∃ taken, (f.step event).received = f.received ++ taken.map (true, ·) ∧
          taken ++ (f.step event).inFlight = f.inFlight ++ published [event] := by
        obtain ⟨wants, requests, serves, inFlight, received⟩ := f
        obtain ⟨hwants, hserves, -⟩ := hf
        cases event with
        | asks wants' => exact ⟨[], (List.append_nil _).symm, (List.append_nil _).symm⟩
        | hears =>
            cases requests <;> exact ⟨[], (List.append_nil _).symm, (List.append_nil _).symm⟩
        | publishes m =>
            cases hserves
            exact ⟨[], (List.append_nil _).symm, rfl⟩
        | receives more =>
            cases hwants
            cases inFlight with
            | nil => exact ⟨[], (List.append_nil _).symm, rfl⟩
            | cons m later =>
                refine ⟨[m], rfl, ?_⟩
                rw [show more = 0 from hone more List.mem_cons_self]
                exact (List.append_nil _).symm
      obtain ⟨first, hfirst, hfirst'⟩ := hstep
      obtain ⟨later, hlater, hlater'⟩ :=
        ih hon htail (fun hmem => hhears (List.mem_cons_of_mem event hmem))
          fun more hmore => hone more (List.mem_cons_of_mem event hmore)
      refine ⟨first ++ later, ?_, ?_⟩
      · rw [after_cons, hlater, hfirst, List.map_append, List.append_assoc]
      · rw [after_cons, published_cons, List.append_assoc, hlater', ← List.append_assoc, hfirst',
          List.append_assoc]

end Feed

end Feeds
