/-
# `Rpc.ConfdEpHandler` — loadd's connection to confd

The handler forwards what the coprocessor sends on the confd endpoint to confd.
When confd closes the connection it sets `needsNewSocket`, and the next
request clears the flag, dials again and gives the new descriptor to the buffer
event.  An error of the connection is only logged.

The handler recovers as long as no error comes without an end of file, and no
attempt to reconnect fails: the flag is cleared before the attempt, so after
a failed one nothing asks for another.
-/
import ProgrammableLoad.Rpc.ClientSocket
import ProgrammableLoad.Rpc.Frame

namespace Rpc

open Cpp Program Handles

/-- `confdSocket` is `none` for `-1`, and `bevFd` is the descriptor `confdBev`
works on.  `reported` are the connections that were reported closed or failed,
and `queued` is what `confdBev` took, with the connection it was to go to. -/
structure ConfdEpHandler where
  needsNewSocket : Bool
  confdSocket : Option Nat
  bevFd : Option Nat
  rpmsgRxBuf : List Byte
  descriptors : List (Use Nat)
  reported : Finset Nat
  queued : List (Nat × List Byte)

namespace ConfdEpHandler

/-- Before the constructor. -/
def blank : ConfdEpHandler := ⟨false, none, none, [], [], ∅, []⟩

/-- What works on descriptors, as a part of the object. -/
def onDescriptors {α : Type} (m : EStateM Fault (List (Use Nat)) α) :
    EStateM Fault ConfdEpHandler α := fun s =>
  match m.run s.descriptors with
  | .ok a ops => .ok a { s with descriptors := ops }
  | .error e ops => .error e { s with descriptors := ops }

def dialError : DialStep → String
  | .socket => "create confd socket"
  | .connect => "dial confd socket"
  | .makeNonblocking => "evutil_make_socket_nonblocking (confd)"

def connectToConfd (kernel : Allocator Nat) (failing : Option DialStep) :
    EStateM Fault ConfdEpHandler Nat :=
  onDescriptors (dialSocket kernel dialError failing)

/-- The steps of the constructor that may fail, in order. -/
inductive ConstructStep where
  | wakeUp
  | dial (step : DialStep)
  | createConfdEvent
  | makeNonblocking
  | createRpmsgEvent
  | enableConfdEvent
  | enableRpmsgEvent
deriving DecidableEq

/-- The dialing step that fails, if it is one. -/
def ConstructStep.dialing : ConstructStep → Option DialStep
  | .dial step => some step
  | _ => none

/-- The constructor; `failing` is the step that fails, if any. -/
def construct (kernel : Allocator Nat) (failing : Option ConstructStep) :
    EStateM Fault ConfdEpHandler Unit := do
  if failing = some .wakeUp then
    throw (.thrown (.systemError "write confd wake-up packet"))
  else do
    let fd ← connectToConfd kernel (failing.bind ConstructStep.dialing)
    modify fun s => { s with confdSocket := some fd }
    if failing = some .createConfdEvent then
      throw (.thrown (.runtimeError "failed to create bufferevent (confd)"))
    else do
      modify fun s => { s with bevFd := some fd }
      match failing with
      | some .makeNonblocking =>
          throw (.thrown (.systemError "evutil_make_socket_nonblocking (rpmsg)"))
      | some .createRpmsgEvent =>
          throw (.thrown (.runtimeError "failed to create bufferevent (rpmsg)"))
      | some .enableConfdEvent =>
          throw (.thrown (.runtimeError "failed to enable bufferevent (confd)"))
      | some .enableRpmsgEvent =>
          throw (.thrown (.runtimeError "failed to enable bufferevent (rpmsg)"))
      | _ => pure ()

/-- The connection of the buffer event is reported closed or failed. -/
def report (s : ConfdEpHandler) : ConfdEpHandler :=
  match s.bevFd with
  | none => s
  | some fd => { s with reported := insert fd s.reported }

/-- An error alone is only logged. -/
def handleConfdEvent (flags : BevFlags) : EStateM Fault ConfdEpHandler Unit :=
  if flags.eof then
    modify fun s => { s.report with needsNewSocket := true, confdSocket := some 0 }
  else if flags.error then
    modify report
  else
    pure ()

/-- A request of the coprocessor, with what becomes of each call that handling
it makes: draining the bytes, dialing (the step that fails), giving the buffer
event a new descriptor, and writing. -/
structure Request where
  pending : List Byte
  drains : Bool
  dial : Option DialStep
  setsFd : Bool
  accepts : Bool

/-- Re-create the socket if needed. -/
def reconnect (kernel : Allocator Nat) (r : Request) : EStateM Fault ConfdEpHandler Unit := do
  if (← get).needsNewSocket then
    modify fun s => { s with needsNewSocket := false }
    let fd ← connectToConfd kernel r.dial
    modify fun s => { s with confdSocket := some fd, reported := s.reported.erase fd }
    if r.setsFd then
      modify fun s => { s with bevFd := some fd }
    else
      throw (.thrown (.runtimeError "bufferevent_setfd failed"))
  else
    pure ()

/-- Bytes that `confdBev` took for its connection. -/
def queue (s : ConfdEpHandler) (fd : Nat) (bytes : List Byte) : ConfdEpHandler :=
  { s with
    descriptors := s.descriptors ++ [.uses fd]
    queued := s.queued ++ [(fd, bytes)] }

/-- `bufferevent_write` on `confdBev` -/
def forward (r : Request) : EStateM Fault ConfdEpHandler Unit := do
  match (← get).bevFd with
  | none => throw (.undefined "bufferevent_write")
  | some fd =>
      if r.accepts then
        modify fun s => s.queue fd r.pending
      else
        throw (.thrown (.runtimeError "failed to write confd->m4 message"))

def handleRpmsgRead (kernel : Allocator Nat) (r : Request) :
    EStateM Fault ConfdEpHandler Unit := do
  if r.drains then
    modify fun s => { s with rpmsgRxBuf := r.pending }
    reconnect kernel r
    forward r
  else
    modify fun s => { s with rpmsgRxBuf := resize s.rpmsgRxBuf r.pending.length }
    throw (.thrown (.runtimeError "failed to drain confd read buffer"))

/-- What happens to the handler between its constructor and its destructor. -/
inductive Input where
  | event (flags : BevFlags)
  | request (r : Request)

/-- The callbacks log an exception and go on.  The watermark keeps the read
callback from running before a header is pending. -/
def step (kernel : Allocator Nat) : Input → EStateM Fault ConfdEpHandler (Except Exception Unit)
  | .event flags => catching (handleConfdEvent flags)
  | .request r =>
      if r.pending.length < headerSize then return .ok ()
      else catching (handleRpmsgRead kernel r)

/-! ## Recovery -/

/-- The handler opened the connection, has not closed it, and it was not
reported closed or failed since. -/
def Live (s : ConfdEpHandler) (fd : Nat) : Prop := fd ∈ held s.descriptors ∧ fd ∉ s.reported

/-- A request that finds the flag set gets as far as dialing. -/
def Redials (s : ConfdEpHandler) (r : Request) : Prop :=
  s.needsNewSocket = true ∧ r.drains = true ∧ headerSize ≤ r.pending.length

/-- Dialing and `bufferevent_setfd` succeed. -/
def Request.Reconnects (r : Request) : Prop := r.dial = none ∧ r.setsFd = true

/-- After the step the flag is set or the connection is live; a request that
was handled and returned is queued on a live connection; and after a failed
attempt to reconnect the flag asks the next request for another. -/
structure Recovers (s : ConfdEpHandler) (x : Input) (answer : Except Exception Unit)
    (t : ConfdEpHandler) : Prop where
  connected : t.needsNewSocket = true ∨ ∃ fd, t.confdSocket = some fd ∧ t.Live fd
  forwards : ∀ r, x = .request r → headerSize ≤ r.pending.length → answer = .ok () →
    ∃ fd, t.Live fd ∧ t.queued = s.queued ++ [(fd, r.pending)]
  retries : ∀ r, x = .request r → s.Redials r → ¬ r.Reconnects → t.needsNewSocket = true

/-- No error without an end of file while the connection is thought to be up,
and no failed attempt to reconnect. -/
def Benign (s : ConfdEpHandler) : Input → Prop
  | .event flags => flags.error = true → flags.eof = false → s.needsNewSocket = true
  | .request r => s.Redials r → r.Reconnects

/-- The flag is set, or the connection is live and the buffer event's own. -/
def Inv (s : ConfdEpHandler) : Prop :=
  s.needsNewSocket = true ∨
    ∃ fd, s.confdSocket = some fd ∧ s.bevFd = some fd ∧ s.Live fd

section Steps

variable {kernel : Allocator Nat} {s t : ConfdEpHandler} {answer : Except Exception Unit}

theorem Inv.connected (h : s.Inv) :
    s.needsNewSocket = true ∨ ∃ fd, s.confdSocket = some fd ∧ s.Live fd :=
  h.imp_right fun ⟨fd, hsocket, _, hlive⟩ => ⟨fd, hsocket, hlive⟩

@[simp] theorem needsNewSocket_report (s : ConfdEpHandler) :
    s.report.needsNewSocket = s.needsNewSocket := by
  unfold report
  split <;> rfl

/-! ### Events -/

theorem handleConfdEvent_run_eof {flags : BevFlags} (h : flags.eof = true) :
    (handleConfdEvent flags).run s
      = .ok () { s.report with needsNewSocket := true, confdSocket := some 0 } := by
  rw [handleConfdEvent, if_pos h]
  rfl

theorem handleConfdEvent_run_error {flags : BevFlags} (heof : flags.eof = false)
    (h : flags.error = true) : (handleConfdEvent flags).run s = .ok () s.report := by
  rw [handleConfdEvent, heof, if_neg Bool.false_ne_true, if_pos h]
  rfl

theorem handleConfdEvent_run_other {flags : BevFlags} (heof : flags.eof = false)
    (h : flags.error = false) : (handleConfdEvent flags).run s = .ok () s := by
  rw [handleConfdEvent, heof, h]
  rfl

/-- Without the flag the invariant is about the connection that is reported. -/
theorem Inv.not_live_report (h : s.Inv) (hflag : s.needsNewSocket = false) {fd : Nat}
    (hfd : s.report.confdSocket = some fd) : ¬ s.report.Live fd := by
  rcases h with hset | ⟨fd', hsocket, hbev, _⟩
  · rw [hflag] at hset
    cases hset
  · have hreport : s.report = { s with reported := insert fd' s.reported } := by
      rw [report, hbev]
    rw [hreport] at hfd ⊢
    cases hsocket.symm.trans hfd
    intro hlive
    exact hlive.2 (Finset.mem_insert_self _ _)

/-- An event either keeps the invariant, or is an error that goes unnoticed. -/
theorem event_cases {flags : BevFlags} (h : s.Inv)
    (hrun : (step kernel (.event flags)).run s = .ok answer t) :
    (t.Inv ∧ s.Benign (.event flags)) ∨
      (¬ s.Benign (.event flags) ∧ t.needsNewSocket = false ∧
        ∀ fd, t.confdSocket = some fd → ¬ t.Live fd) := by
  rw [step] at hrun
  cases heof : flags.eof with
  | true =>
      rw [catching_run_ok (handleConfdEvent_run_eof heof)] at hrun
      cases hrun
      refine .inl ⟨.inl rfl, ?_⟩
      intro _ hnot
      rw [heof] at hnot
      cases hnot
  | false =>
      cases herror : flags.error with
      | false =>
          rw [catching_run_ok (handleConfdEvent_run_other heof herror)] at hrun
          cases hrun
          refine .inl ⟨h, ?_⟩
          intro hyes
          rw [herror] at hyes
          cases hyes
      | true =>
          rw [catching_run_ok (handleConfdEvent_run_error heof herror)] at hrun
          cases hrun
          cases hflag : s.needsNewSocket with
          | true => exact .inl ⟨.inl (by rw [needsNewSocket_report, hflag]), fun _ _ => hflag⟩
          | false =>
              refine .inr ⟨?_, ?_, fun fd hfd => h.not_live_report hflag hfd⟩
              · intro hbenign
                rw [hbenign herror heof] at hflag
                cases hflag
              · rw [needsNewSocket_report, hflag]

/-! ### Requests -/

theorem forward_run {r : Request} {fd : Nat} (h : s.bevFd = some fd) :
    (forward r).run s = if r.accepts = true then
        .ok () (s.queue fd r.pending)
      else
        .error (.thrown (.runtimeError "failed to write confd->m4 message")) s := by
  rw [forward, run_get_bind]
  simp only [h]
  split <;> rfl

theorem reconnect_run_of_clear (kernel : Allocator Nat) (r : Request)
    (h : s.needsNewSocket = false) : (reconnect kernel r).run s = .ok () s := by
  rw [reconnect, run_get_bind, run_ite, h]
  rfl

/-- The handler on its new connection. -/
def reconnected (kernel : Allocator Nat) (s : ConfdEpHandler) : ConfdEpHandler :=
  { s with
    needsNewSocket := false
    confdSocket := some (kernel.next s.descriptors)
    bevFd := some (kernel.next s.descriptors)
    descriptors := s.descriptors ++ [.opens (kernel.next s.descriptors)]
    reported := s.reported.erase (kernel.next s.descriptors) }

theorem live_reconnected (kernel : Allocator Nat) (s : ConfdEpHandler) :
    (s.reconnected kernel).Live (kernel.next s.descriptors) := by
  refine ⟨?_, Finset.notMem_erase _ _⟩
  rw [reconnected, held_snoc]
  exact Finset.mem_insert_self _ _

variable (kernel) in
theorem reconnect_run_of_reconnects {r : Request} (h : s.needsNewSocket = true)
    (hr : r.Reconnects) : (reconnect kernel r).run s = .ok () (s.reconnected kernel) := by
  obtain ⟨hdial, hsets⟩ := hr
  rw [reconnect, run_get_bind, run_ite, h, if_pos rfl, hdial, hsets]
  rfl

variable (kernel s) in
/-- A failed dial leaves nothing open. -/
theorem connectToConfd_run_some (failing : DialStep) :
    ∃ e ops, (connectToConfd kernel (some failing)).run s
        = .error (.thrown e) { s with descriptors := ops } ∧
      held ops = held s.descriptors ∧ (Disciplined s.descriptors → Disciplined ops) := by
  obtain ⟨e, ops, hops, hheld, hdisciplined⟩ := dialSocket_run_some kernel dialError
    s.descriptors failing
  refine ⟨e, ops, ?_, hheld, hdisciplined⟩
  simp only [connectToConfd, onDescriptors, EStateM.run] at hops ⊢
  rw [hops]

variable (kernel) in
/-- After a failed dial the flag is cleared. -/
theorem reconnect_run_of_dial {r : Request} {failing : DialStep} (h : s.needsNewSocket = true)
    (hdial : r.dial = some failing) :
    ∃ e ops, (reconnect kernel r).run s
        = .error (.thrown e) { s with needsNewSocket := false, descriptors := ops } ∧
      held ops = held s.descriptors ∧ (Disciplined s.descriptors → Disciplined ops) := by
  obtain ⟨e, ops, hconnect, hops⟩ := connectToConfd_run_some kernel
    { s with needsNewSocket := false } failing
  refine ⟨e, ops, ?_, hops⟩
  rw [reconnect, run_get_bind, run_ite, h, if_pos rfl, hdial]
  exact (run_bind_of_ok rfl).trans (run_bind_of_error hconnect)

variable (kernel) in
/-- A buffer event that does not take the new descriptor keeps the old one. -/
theorem reconnect_run_of_setsFd {r : Request} (h : s.needsNewSocket = true)
    (hdial : r.dial = none) (hsets : r.setsFd = false) :
    (reconnect kernel r).run s = .error (.thrown (.runtimeError "bufferevent_setfd failed"))
      { s.reconnected kernel with bevFd := s.bevFd } := by
  rw [reconnect, run_get_bind, run_ite, h, if_pos rfl, hdial, hsets]
  rfl

variable (kernel) in
/-- A failed attempt leaves the flag cleared. -/
theorem reconnect_run_of_not_reconnects {r : Request} (h : s.needsNewSocket = true)
    (hr : ¬ r.Reconnects) :
    ∃ e t, (reconnect kernel r).run s = .error e t ∧ t.needsNewSocket = false := by
  cases hdial : r.dial with
  | some failing =>
      obtain ⟨e, ops, hrun, _⟩ := reconnect_run_of_dial kernel h hdial
      exact ⟨_, _, hrun, rfl⟩
  | none =>
      have hsets : r.setsFd = false := by
        cases hs : r.setsFd with
        | false => rfl
        | true => exact absurd ⟨hdial, hs⟩ hr
      exact ⟨_, _, reconnect_run_of_setsFd kernel h hdial hsets, rfl⟩

theorem handleRpmsgRead_run_of_drains (kernel : Allocator Nat) {r : Request}
    (h : r.drains = true) :
    (handleRpmsgRead kernel r).run s
      = (reconnect kernel r >>= fun _ => forward r).run { s with rpmsgRxBuf := r.pending } := by
  rw [handleRpmsgRead, if_pos h]
  rfl

theorem handleRpmsgRead_run_of_not_drains (kernel : Allocator Nat) {r : Request}
    (h : r.drains = false) :
    (handleRpmsgRead kernel r).run s
      = .error (.thrown (.runtimeError "failed to drain confd read buffer"))
        { s with rpmsgRxBuf := resize s.rpmsgRxBuf r.pending.length } := by
  rw [handleRpmsgRead, h]
  rfl

/-- A request that is handled is not drained, fails to reconnect and clears the
flag, or comes to the write on a live connection. -/
theorem handleRpmsgRead_cases (kernel : Allocator Nat) (r : Request) (h : s.Inv)
    (hsize : headerSize ≤ r.pending.length) :
    (∃ e t, (handleRpmsgRead kernel r).run s = .error e t ∧ t.Inv ∧ r.drains = false) ∨
      (∃ e t, (handleRpmsgRead kernel r).run s = .error e t ∧ t.needsNewSocket = false ∧
        s.Redials r ∧ ¬ r.Reconnects) ∨
      (∃ u fd, (handleRpmsgRead kernel r).run s = (forward r).run u ∧
        u.confdSocket = some fd ∧ u.bevFd = some fd ∧ u.Live fd ∧ u.queued = s.queued ∧
          s.Benign (.request r)) := by
  cases hdrains : r.drains with
  | false => exact .inl ⟨_, _, handleRpmsgRead_run_of_not_drains kernel hdrains, h, rfl⟩
  | true =>
      rw [handleRpmsgRead_run_of_drains kernel hdrains]
      rcases Bool.eq_false_or_eq_true s.needsNewSocket with hflag | hflag
      · by_cases hr : r.Reconnects
        · refine .inr (.inr ⟨_, _, run_bind_of_ok (reconnect_run_of_reconnects kernel hflag hr),
            rfl, rfl, live_reconnected kernel _, rfl, ?_⟩)
          intro _
          exact hr
        · obtain ⟨e, t, ht, hclear⟩ := reconnect_run_of_not_reconnects
            kernel (s := { s with rpmsgRxBuf := r.pending }) hflag hr
          exact .inr (.inl ⟨e, t, run_bind_of_error ht, hclear, ⟨hflag, hdrains, hsize⟩, hr⟩)
      · rcases h with hset | ⟨fd, hsocket, hbev, hlive⟩
        · rw [hflag] at hset
          cases hset
        · refine .inr (.inr ⟨{ s with rpmsgRxBuf := r.pending }, fd, ?_, hsocket, hbev, hlive,
            rfl, fun hredials => ?_⟩)
          · exact run_bind_of_ok (reconnect_run_of_clear kernel r hflag)
          · rw [hredials.1] at hflag
            cases hflag

theorem step_run_of_short {r : Request} (h : r.pending.length < headerSize) :
    (step kernel (.request r)).run s = .ok (.ok ()) s := by
  rw [step, run_ite, if_pos h]
  rfl

theorem step_run_of_complete {r : Request} (h : headerSize ≤ r.pending.length) :
    (step kernel (.request r)).run s = (catching (handleRpmsgRead kernel r)).run s := by
  rw [step, run_ite, if_neg (Nat.not_lt.mpr h)]

/-- A request either keeps the invariant and is queued on a live connection if
it returns, or fails to reconnect and clears the flag. -/
theorem request_cases {r : Request} (h : s.Inv)
    (hrun : (step kernel (.request r)).run s = .ok answer t) :
    (t.Inv ∧ s.Benign (.request r) ∧ (headerSize ≤ r.pending.length → answer = .ok () →
        ∃ fd, t.Live fd ∧ t.queued = s.queued ++ [(fd, r.pending)])) ∨
      (s.Redials r ∧ ¬ r.Reconnects ∧ t.needsNewSocket = false) := by
  by_cases hshort : r.pending.length < headerSize
  · rw [step_run_of_short hshort] at hrun
    cases hrun
    refine .inl ⟨h, ?_, fun hsize => absurd hsize (Nat.not_le.mpr hshort)⟩
    intro hredials
    exact absurd hredials.2.2 (Nat.not_le.mpr hshort)
  have hsize := Nat.not_lt.mp hshort
  rw [step_run_of_complete hsize] at hrun
  rcases handleRpmsgRead_cases kernel r h hsize with ⟨e, u, hu, hinv, hdrains⟩ |
    ⟨e, u, hu, hclear, hredials, hr⟩ | ⟨u, fd, hu, hsocket, hbev, hlive, hqueued, hbenign⟩
  · obtain ⟨rfl, _, rfl⟩ := catching_run_of_error hu hrun
    refine .inl ⟨hinv, ?_, nofun⟩
    intro hredials
    rw [hredials.2.1] at hdrains
    cases hdrains
  · obtain ⟨rfl, _⟩ := catching_run_of_error hu hrun
    exact .inr ⟨hredials, hr, hclear⟩
  · rw [forward_run hbev] at hu
    have hlive' : (u.queue fd r.pending).Live fd := by
      refine ⟨?_, hlive.2⟩
      rw [queue, held_snoc]
      exact hlive.1
    split at hu
    · cases (catching_run_ok hu).symm.trans hrun
      refine .inl ⟨.inr ⟨fd, hsocket, hbev, hlive'⟩, hbenign, fun _ _ => ⟨fd, hlive', ?_⟩⟩
      rw [queue, hqueued]
    · obtain ⟨rfl, _, rfl⟩ := catching_run_of_error hu hrun
      exact .inl ⟨.inr ⟨fd, hsocket, hbev, hlive⟩, hbenign, nofun⟩

/-! ### Any step -/

theorem recovers_iff {x : Input} (h : s.Inv) (hrun : (step kernel x).run s = .ok answer t) :
    s.Recovers x answer t ↔ s.Benign x := by
  cases x with
  | event flags =>
      rcases event_cases h hrun with ⟨hinv, hbenign⟩ | ⟨hnot, hclear, hdead⟩
      · exact ⟨fun _ => hbenign, fun _ => ⟨hinv.connected, fun _ hx => (nomatch hx),
          fun _ hx => (nomatch hx)⟩⟩
      · refine ⟨fun hrecovers => ?_, fun hbenign => absurd hbenign hnot⟩
        rcases hrecovers.connected with hset | ⟨fd, hsocket, hlive⟩
        · rw [hclear] at hset
          cases hset
        · exact absurd hlive (hdead fd hsocket)
  | request r =>
      rcases request_cases h hrun with ⟨hinv, hbenign, hforwards⟩ | ⟨hredials, hr, hclear⟩
      · refine ⟨fun _ => hbenign, fun _ => ⟨hinv.connected, ?_, ?_⟩⟩
        · intro r' hr' hok
          cases hr'
          exact hforwards hok
        · intro r' hr' hredials hnot
          cases hr'
          exact absurd (hbenign hredials) hnot
      · constructor
        · intro hrecovers
          have hset := hrecovers.retries r rfl hredials hr
          rw [hclear] at hset
          cases hset
        · intro hbenign
          exact absurd (hbenign hredials) hr

theorem inv_step {x : Input} (h : s.Inv) (hrun : (step kernel x).run s = .ok answer t)
    (hbenign : s.Benign x) : t.Inv := by
  cases x with
  | event flags =>
      rcases event_cases h hrun with ⟨hinv, _⟩ | ⟨hnot, _⟩
      · exact hinv
      · exact absurd hbenign hnot
  | request r =>
      rcases request_cases h hrun with ⟨hinv, _⟩ | ⟨hredials, hr, _⟩
      · exact hinv
      · exact absurd (hbenign hredials) hr

end Steps

/-! ## Runs -/

/-- The handler as its constructor leaves it. -/
def constructed (kernel : Allocator Nat) : ConfdEpHandler :=
  { blank with
    confdSocket := some (kernel.next [])
    bevFd := some (kernel.next [])
    descriptors := [.opens (kernel.next [])] }

theorem construct_run_none (kernel : Allocator Nat) :
    (construct kernel none).run blank = .ok () (constructed kernel) := rfl

theorem inv_constructed (kernel : Allocator Nat) : (constructed kernel).Inv :=
  .inr ⟨kernel.next [], rfl, rfl, Finset.mem_insert_self _ _, Finset.notMem_empty _⟩

/-- In every run of a handler that was constructed, every step recovers if and
only if every step is benign. -/
theorem recovers_throughout_iff (kernel : Allocator Nat) (xs : List Input) :
    Throughout (step kernel) Recovers (constructed kernel) xs ↔
      Throughout (step kernel) (fun s x _ _ => s.Benign x) (constructed kernel) xs := by
  refine throughout_iff (I := Inv) ?_ ?_ (inv_constructed kernel)
  · intro s x answer t h hrun hbenign
    exact inv_step h hrun hbenign
  · intro s x answer t h hrun
    exact recovers_iff h hrun

/-- confd closes the connection and is not back up when the next request comes:
the flag is cleared, and the connection is descriptor zero. -/
theorem not_recovers_confd_down :
    ¬ Throughout (step (.lowest 3)) Recovers (constructed (.lowest 3))
      [.event BEV_EVENT_EOF,
        .request ⟨List.replicate 8 0x01, true, some .connect, true, true⟩] := by
  intro h
  obtain ⟨_, h⟩ := h _ _ rfl
  obtain ⟨hrecovers, _⟩ := h _ _ rfl
  have hset := hrecovers.retries _ rfl ⟨rfl, rfl, Nat.le_refl 8⟩ (fun hr => nomatch hr.1)
  cases hset

end ConfdEpHandler

end Rpc
