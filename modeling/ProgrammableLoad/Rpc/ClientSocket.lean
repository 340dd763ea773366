/-
# `Rpc.ClientSocket` — the descriptor of a client of the common library

`ClientBase` opens a socket in its constructor, writes to it with `sendRaw`
and closes it in its destructor, unless the member is the sentinel `-1`.  An
end of file sets the member to zero instead, so from then on the object writes
to descriptor zero and closes that one.

A constructor that throws runs no destructor.
-/
import ProgrammableLoad.Cpp.Fault
import ProgrammableLoad.Theory.Handles
import ProgrammableLoad.Theory.Runs

namespace Rpc

open Cpp Program Handles

/-! ## Buffer events -/

/-- The flags of an event of a connection. -/
abbrev BevFlags := BitVec 32

def BEV_EVENT_EOF : BevFlags := 0x10
def BEV_EVENT_ERROR : BevFlags := 0x20

def BevFlags.eof (flags : BevFlags) : Bool := flags &&& BEV_EVENT_EOF ≠ 0

def BevFlags.error (flags : BevFlags) : Bool := flags &&& BEV_EVENT_ERROR ≠ 0

/-! ## Dialing a local socket -/

/-- The steps of dialing that may fail, in order. -/
inductive DialStep where
  | socket | connect | makeNonblocking
deriving DecidableEq

/-- Open a socket, connect it and make it non-blocking; it is closed again if
one of the last two fails.  The state is what was done to descriptors. -/
def dialSocket (kernel : Allocator Nat) (error : DialStep → String)
    (failing : Option DialStep) : EStateM Fault (List (Use Nat)) Nat := do
  if failing = some .socket then
    throw (.thrown (.systemError (error .socket)))
  else do
    let fd := kernel.next (← get)
    modify fun ops => ops ++ [.opens fd]
    match failing with
    | some step =>
        modify fun ops => ops ++ [.closes fd]
        throw (.thrown (.systemError (error step)))
    | none => return fd

section Dial

variable {kernel : Allocator Nat} {error : DialStep → String} {ops : List (Use Nat)}

variable (kernel error ops) in
/-- A failed attempt leaves nothing open. -/
theorem dialSocket_run_some (step : DialStep) :
    ∃ e ops', (dialSocket kernel error (some step)).run ops = .error (.thrown e) ops' ∧
      held ops' = held ops ∧ (Disciplined ops → Disciplined ops') := by
  have hclosed : held (ops ++ [.opens (kernel.next ops)] ++ [.closes (kernel.next ops)])
      = held ops := by
    rw [held_snoc, held_snoc]
    exact Finset.erase_insert (kernel.fresh ops)
  have hdisciplined : Disciplined ops →
      Disciplined (ops ++ [.opens (kernel.next ops)] ++ [.closes (kernel.next ops)]) := by
    intro h
    refine .snoc (disciplined_opens kernel h) ?_
    rw [held_snoc]
    exact Finset.mem_insert_self _ _
  cases step with
  | socket => exact ⟨_, ops, rfl, rfl, id⟩
  | connect => exact ⟨_, _, rfl, hclosed, hdisciplined⟩
  | makeNonblocking => exact ⟨_, _, rfl, hclosed, hdisciplined⟩

end Dial

/-! ## The object -/

/-- `fd` is `none` for `-1`; `peerClosed` says that the other end of the
object's own connection has gone. -/
structure ClientSocket where
  fd : Option Nat
  descriptors : List (Use Nat)
  peerClosed : Bool

namespace ClientSocket

/-- Before the constructor. -/
def blank : ClientSocket := ⟨none, [], false⟩

/-- What works on descriptors, as a part of the object. -/
def onDescriptors {α : Type} (m : EStateM Fault (List (Use Nat)) α) :
    EStateM Fault ClientSocket α := fun s =>
  match m.run s.descriptors with
  | .ok a ops => .ok a { s with descriptors := ops }
  | .error e ops => .error e { s with descriptors := ops }

def connectSocket (kernel : Allocator Nat) (failing : Option DialStep) :
    EStateM Fault ClientSocket Nat :=
  onDescriptors <| dialSocket kernel (fun
    | .socket => "create rpc socket"
    | .connect => "dial rpc socket"
    | .makeNonblocking => "evutil_make_socket_nonblocking") failing

/-- The steps of the constructor that may fail. -/
inductive ConstructStep where
  | dial (step : DialStep)
  | createEvent
  | enableEvent
deriving DecidableEq

/-- The dialing step that fails, if it is one. -/
def ConstructStep.dialing : ConstructStep → Option DialStep
  | .dial step => some step
  | _ => none

/-- The constructor; `failing` is the step that fails, if any. -/
def construct (kernel : Allocator Nat) (failing : Option ConstructStep) :
    EStateM Fault ClientSocket Unit := do
  let fd ← connectSocket kernel (failing.bind ConstructStep.dialing)
  modify fun s => { s with fd := some fd }
  if failing = some .createEvent then
    throw (.thrown (.runtimeError "failed to create bufferevent"))
  else if failing = some .enableEvent then
    throw (.thrown (.runtimeError "failed to enable bufferevent"))
  else
    pure ()

/-- `~ClientBase` -/
def destroy (s : ClientSocket) : ClientSocket :=
  match s.fd with
  | none => s
  | some fd => { s with descriptors := s.descriptors ++ [.closes fd] }

/-- An end of file means that the peer has gone. -/
def bevEvent (flags : BevFlags) : EStateM Fault ClientSocket Unit :=
  if flags.eof then
    modify fun s => { s with fd := some 0, peerClosed := true }
  else
    pure ()

/-- `accepts` says whether the file behind the descriptor takes the bytes; a
connection of the object's own takes none once its peer has gone. -/
def sendRaw (accepts : Bool) : EStateM Fault ClientSocket Unit := do
  let s ← get
  match s.fd with
  | none => throw (.thrown (.systemError "write"))
  | some fd =>
      set { s with descriptors := s.descriptors ++ [Use.uses fd] }
      if accepts && !(s.peerClosed && decide (fd ∈ held s.descriptors)) then
        pure ()
      else
        throw (.thrown (.systemError "write"))

/-- What happens to the object between its constructor and its destructor. -/
inductive Input where
  | event (flags : BevFlags)
  | send (accepts : Bool)

def Input.isEof : Input → Bool
  | .event flags => flags.eof
  | .send _ => false

/-- An exception of an event is logged, one of a send is the caller's. -/
def step : Input → EStateM Fault ClientSocket (Except Exception Unit)
  | .event flags => catching (bevEvent flags)
  | .send accepts => catching (sendRaw accepts)

/-- The object after its whole life. -/
def lifetime (kernel : Allocator Nat) (failing : Option ConstructStep) (xs : List Input) :
    ClientSocket :=
  match (construct kernel failing).run blank with
  | .error _ s => s
  | .ok _ s => (final step s xs).destroy

/-- A send after the peer has gone fails. -/
def SendFails (s : ClientSocket) (x : Input) (answer : Except Exception Unit)
    (_ : ClientSocket) : Prop :=
  ∀ accepts, x = .send accepts → s.peerClosed = true → answer ≠ .ok ()

/-- Over its whole life the object uses and closes only what it has open, closes
each descriptor it opened once, and sends nothing after an end of file. -/
structure Owns (kernel : Allocator Nat) (failing : Option ConstructStep) (xs : List Input) :
    Prop where
  balanced : Balanced (lifetime kernel failing xs).descriptors
  sends_fail : ∀ s, (construct kernel failing).run blank = .ok () s →
    Throughout step SendFails s xs

/-- The constructor does not fail once it has a socket, and there is no end of
file after it, or the socket is descriptor zero. -/
def Sound (kernel : Allocator Nat) (failing : Option ConstructStep) (xs : List Input) : Prop :=
  failing ≠ some .createEvent ∧ failing ≠ some .enableEvent ∧
    (failing = none → (∀ x ∈ xs, x.isEof = false) ∨ kernel.next [] = 0)

/-! ## One step -/

section Steps

variable {kernel : Allocator Nat} {s : ClientSocket} {fd : Nat}

theorem stateAfter_step (x : Input) : stateAfter (step x) s = stateAfter (match x with
    | .event flags => bevEvent flags
    | .send accepts => sendRaw accepts) s := by
  cases x with
  | event flags => exact stateAfter_catching _ s
  | send accepts => exact stateAfter_catching _ s

theorem stateAfter_event (flags : BevFlags) :
    stateAfter (step (.event flags)) s
      = if flags.eof then { s with fd := some 0, peerClosed := true } else s := by
  rw [stateAfter_step]
  cases h : flags.eof with
  | false => simp only [bevEvent, h]; rfl
  | true => simp only [bevEvent, h]; rfl

theorem sendRaw_run (accepts : Bool) (h : s.fd = some fd) :
    (sendRaw accepts).run s
      = if (accepts && !(s.peerClosed && decide (fd ∈ held s.descriptors))) = true then
          .ok () { s with descriptors := s.descriptors ++ [.uses fd] }
        else
          .error (.thrown (.systemError "write"))
            { s with descriptors := s.descriptors ++ [.uses fd] } := by
  rw [sendRaw, run_get_bind]
  simp only [h]
  split <;> rfl

theorem stateAfter_send (accepts : Bool) (h : s.fd = some fd) :
    stateAfter (step (.send accepts)) s
      = { s with descriptors := s.descriptors ++ [.uses fd] } := by
  rw [stateAfter_step]
  simp only [stateAfter, sendRaw_run accepts h]
  split <;> rename_i heq <;> split at heq <;> cases heq <;> rfl

/-- The object has one connection, its own, and has used no other. -/
structure OwnsOne (fd : Nat) (s : ClientSocket) : Prop where
  fd_eq : s.fd = some fd
  held_eq : held s.descriptors = {fd}
  disciplined : Disciplined s.descriptors

theorem ownsOne_step {x : Input} (h : s.OwnsOne fd) (hx : x.isEof = false ∨ fd = 0) :
    (stateAfter (step x) s).OwnsOne fd := by
  cases x with
  | event flags =>
      rw [stateAfter_event]
      split
      · rename_i heof
        rcases hx with hx | hzero
        · rw [Input.isEof, heof] at hx
          cases hx
        · exact ⟨by rw [hzero], h.held_eq, h.disciplined⟩
      · exact h
  | send accepts =>
      rw [stateAfter_send accepts h.fd_eq]
      refine ⟨h.fd_eq, ?_, .snoc h.disciplined ?_⟩
      · rw [held_snoc]
        exact h.held_eq
      · rw [h.held_eq]
        exact Finset.mem_singleton_self fd

theorem sendFails_step {x : Input} {answer : Except Exception Unit} {t : ClientSocket}
    (h : s.OwnsOne fd) (hrun : (step x).run s = .ok answer t) : SendFails s x answer t := by
  rintro accepts rfl hclosed hanswer
  have hmem : fd ∈ held s.descriptors := by
    rw [h.held_eq]
    exact Finset.mem_singleton_self fd
  have hsend := sendRaw_run accepts h.fd_eq
  simp only [hclosed, hmem, decide_true, Bool.and_self, Bool.not_true, Bool.and_false,
    Bool.false_eq_true, if_false] at hsend
  rw [step, catching_run_thrown hsend] at hrun
  cases hrun
  cases hanswer

/-- What was opened stays open, and a member that is zero stays zero. -/
theorem mem_held_step (x : Input) (h : fd ∈ held s.descriptors) (hsome : s.fd.isSome = true) :
    fd ∈ held (stateAfter (step x) s).descriptors ∧
      (stateAfter (step x) s).fd.isSome = true := by
  obtain ⟨own, hown⟩ := Option.isSome_iff_exists.mp hsome
  cases x with
  | event flags =>
      rw [stateAfter_event]
      split
      · exact ⟨h, rfl⟩
      · exact ⟨h, hsome⟩
  | send accepts =>
      rw [stateAfter_send accepts hown]
      refine ⟨?_, hsome⟩
      rw [held_snoc]
      exact h

theorem fd_zero_step (x : Input) (h : s.fd = some 0) : (stateAfter (step x) s).fd = some 0 := by
  cases x with
  | event flags =>
      rw [stateAfter_event]
      split
      · rfl
      · exact h
  | send accepts =>
      rw [stateAfter_send accepts h]
      exact h

end Steps

/-! ## The whole life -/

section Life

variable {kernel : Allocator Nat} {failing : Option ConstructStep} {xs : List Input}

/-- The object as its constructor leaves it. -/
def constructed (kernel : Allocator Nat) : ClientSocket :=
  ⟨some (kernel.next []), [.opens (kernel.next [])], false⟩

theorem construct_run_none : (construct kernel none).run blank = .ok () (constructed kernel) := rfl

theorem ownsOne_constructed : (constructed kernel).OwnsOne (kernel.next []) where
  fd_eq := rfl
  held_eq := rfl
  disciplined := disciplined_opens kernel .nil

variable (kernel) in
theorem construct_run_dial (step : DialStep) :
    ∃ e s, (construct kernel (some (.dial step))).run blank = .error e s ∧
      Balanced s.descriptors := by
  obtain ⟨e, ops, hdial, hheld, hdisciplined⟩ := dialSocket_run_some kernel
    (fun
      | .socket => "create rpc socket"
      | .connect => "dial rpc socket"
      | .makeNonblocking => "evutil_make_socket_nonblocking") [] step
  have hconnect : (connectSocket kernel (some step)).run blank
      = .error (.thrown e) { blank with descriptors := ops } := by
    simp only [connectSocket, onDescriptors, EStateM.run, blank] at hdial ⊢
    rw [hdial]
  refine ⟨.thrown e, { blank with descriptors := ops }, ?_, hdisciplined .nil, hheld⟩
  rw [construct, EStateM.run_bind]
  simp only [Option.bind_some, ConstructStep.dialing, hconnect]

variable (kernel) in
/-- A constructor that fails late leaves the socket open. -/
theorem construct_run_late (h : failing = some .createEvent ∨ failing = some .enableEvent) :
    ∃ e, (construct kernel failing).run blank = .error e (constructed kernel) := by
  rcases h with rfl | rfl
  · exact ⟨_, rfl⟩
  · exact ⟨_, rfl⟩

theorem sends_fail_of_ownsOne {fd : Nat} {s : ClientSocket} (h : s.OwnsOne fd)
    (hxs : ∀ x ∈ xs, x.isEof = false ∨ fd = 0) : Throughout step SendFails s xs := by
  induction xs generalizing s with
  | nil => trivial
  | cons x xs ih =>
      intro answer t hrun
      have hnext := ownsOne_step h (hxs x List.mem_cons_self)
      rw [stateAfter_of_ok hrun] at hnext
      exact ⟨sendFails_step h hrun, ih hnext fun y hy => hxs y (List.mem_cons_of_mem x hy)⟩

theorem balanced_destroy {fd : Nat} {s : ClientSocket} (h : s.OwnsOne fd) :
    Balanced s.destroy.descriptors := by
  have hdestroy : s.destroy = { s with descriptors := s.descriptors ++ [.closes fd] } := by
    rw [destroy, h.fd_eq]
  rw [hdestroy]
  exact balanced_snoc_closes h.disciplined h.held_eq

/-- After an end of file the destructor closes descriptor zero and not the
object's own. -/
theorem not_balanced_of_eof {x : Input} (hx : x ∈ xs) (heof : x.isEof = true)
    (hfd : kernel.next [] ≠ 0) :
    ¬ Balanced (final step (constructed kernel) xs).destroy.descriptors := by
  obtain ⟨before, after, rfl⟩ := List.append_of_mem hx
  have hheld : kernel.next [] ∈ held (final step (constructed kernel)
      (before ++ x :: after)).descriptors :=
    (final_keeps
      (I := fun s : ClientSocket => kernel.next [] ∈ held s.descriptors ∧ s.fd.isSome = true)
      (fun y _ s hs => mem_held_step y hs.1 hs.2) ⟨Finset.mem_insert_self _ _, rfl⟩).1
  have hzero : (final step (constructed kernel) (before ++ x :: after)).fd = some 0 := by
    rw [final_append]
    show (final step (stateAfter (step x) (final step (constructed kernel) before)) after).fd = _
    refine final_keeps (I := fun s : ClientSocket => s.fd = some 0)
      (fun y _ s hs => fd_zero_step y hs) ?_
    cases x with
    | event flags =>
        have hflags : flags.eof = true := heof
        rw [stateAfter_event, if_pos hflags]
    | send accepts => cases heof
  refine not_balanced_of_mem (d := kernel.next []) ?_
  rw [destroy, hzero, held_snoc]
  exact Finset.mem_erase.mpr ⟨hfd, hheld⟩

variable (kernel xs) in
theorem not_owns_of_late (h : failing = some .createEvent ∨ failing = some .enableEvent) :
    ¬ Owns kernel failing xs := by
  rintro ⟨hbalanced, _⟩
  obtain ⟨e, he⟩ := construct_run_late kernel h
  rw [lifetime, he] at hbalanced
  exact not_balanced_of_mem (Finset.mem_insert_self _ _) hbalanced

variable (kernel xs) in
theorem owns_of_dial (step : DialStep) : Owns kernel (some (.dial step)) xs := by
  obtain ⟨e, s, hs, hbalanced⟩ := construct_run_dial kernel step
  constructor
  · rw [lifetime, hs]
    exact hbalanced
  · intro t ht
    rw [hs] at ht
    cases ht

variable (kernel xs) in
/-- An object that was constructed owns its descriptor if no end of file comes,
or finds it on descriptor zero. -/
theorem owns_none_iff :
    Owns kernel none xs ↔ (∀ x ∈ xs, x.isEof = false) ∨ kernel.next [] = 0 := by
  have hlife : lifetime kernel none xs = (final step (constructed kernel) xs).destroy := by
    rw [lifetime, construct_run_none]
  constructor
  · rintro ⟨hbalanced, _⟩
    by_contra hnot
    simp only [not_or, not_forall, Bool.not_eq_false] at hnot
    obtain ⟨⟨x, hx, heof⟩, hfd⟩ := hnot
    rw [hlife] at hbalanced
    exact not_balanced_of_eof hx heof hfd hbalanced
  · intro h
    have hxs : ∀ x ∈ xs, x.isEof = false ∨ kernel.next [] = 0 := by
      intro x hx
      exact h.imp_left fun hall => hall x hx
    constructor
    · rw [hlife]
      exact balanced_destroy (final_keeps (fun x hx s hs => ownsOne_step hs (hxs x hx))
        ownsOne_constructed)
    · intro s hs
      rw [construct_run_none] at hs
      cases hs
      exact sends_fail_of_ownsOne ownsOne_constructed hxs

theorem owns_iff (kernel : Allocator Nat) (failing : Option ConstructStep) (xs : List Input) :
    Owns kernel failing xs ↔ Sound kernel failing xs := by
  rcases failing with _ | (step' | _ | _)
  · rw [owns_none_iff]
    exact ⟨fun h => ⟨fun hc => (nomatch hc), fun he => (nomatch he), fun _ => h⟩,
      fun h => h.2.2 rfl⟩
  · exact iff_of_true (owns_of_dial kernel xs step')
      ⟨fun hc => (nomatch hc), fun he => (nomatch he), fun hn => (nomatch hn)⟩
  · exact iff_of_false (not_owns_of_late kernel xs (.inl rfl)) fun h => h.1 rfl
  · exact iff_of_false (not_owns_of_late kernel xs (.inr rfl)) fun h => h.2.1 rfl

end Life

end ClientSocket

end Rpc
