/-
# `Rpc.ConfdProxy` — the two directions of the confd proxy

loadd passes what the coprocessor sends on its confd endpoint to confd and what
confd answers to the coprocessor.  A read callback is called when a whole
header is pending; it drains everything and writes it to the other side.  What
a failing call leaves unsent is lost, except that bytes that could not be
drained wait for the next arrival.

Over any interleaving the bytes go out in order and at most once, and the
proxy is transparent exactly if every batch it drains goes out whole and confd
says nothing while its connection is not read, `forwarded`.  Only the
constructor enables reading.  Where libevent stops reading at the end of a
connection and a new descriptor does not start it again, confd is not heard
any more once it was restarted, `silent_after`.
-/
import ProgrammableLoad.Rpc.ConfdEpHandler
import ProgrammableLoad.Theory.Relay

namespace Rpc

open Cpp Program Relays

/-- Whether libevent stops reading from a connection when it reports an event,
and whether `bufferevent_setfd` makes it read again. -/
structure Libevent where
  stops : BevFlags → Bool
  resumes : Bool

/-- The handler with the input buffers of its two buffer events.  `remote` are
the packets the endpoint took, and `reading` says whether `confdBev` is read. -/
structure ConfdProxy where
  handler : ConfdEpHandler
  rpmsgInput : List Byte
  confdInput : List Byte
  confdRxBuf : List Byte
  remote : List (List Byte)
  reading : Bool

namespace ConfdProxy

open ConfdEpHandler (Request)

/-- Bytes of confd, with what becomes of the calls that handling them makes;
`writes` is the number of bytes `write` leaves out, if it does not fail. -/
structure Answer where
  bytes : List Byte
  drains : Bool
  writes : Option Nat

/-- The `pending` bytes of a request are those that arrive. -/
inductive Event where
  | rpmsg (r : Request)
  | confd (a : Answer)
  | event (flags : BevFlags)

instance Request.Reconnects.decidable (r : Request) : Decidable r.Reconnects :=
  inferInstanceAs (Decidable (r.dial = none ∧ r.setsFd = true))

/-- What works on the rest of the handler. -/
def onHandler {α : Type} (m : EStateM Fault ConfdEpHandler α) : EStateM Fault ConfdProxy α :=
  fun s =>
    match m.run s.handler with
    | .ok a handler => .ok a { s with handler := handler }
    | .error e handler => .error e { s with handler := handler }

/-- A request that leads to a new descriptor of the buffer event. -/
def renews (handler : ConfdEpHandler) (r : Request) : Bool :=
  handler.needsNewSocket && r.drains && r.Reconnects

/-- What a request does to the buffer events. -/
def drained (libevent : Libevent) (r : Request) (s : ConfdProxy) : ConfdProxy :=
  { s with
    rpmsgInput := if r.drains then [] else s.rpmsgInput
    reading := s.reading || (renews s.handler r && libevent.resumes) }

def handleRpmsgRead (kernel : Handles.Allocator Nat) (libevent : Libevent) (r : Request) :
    EStateM Fault ConfdProxy Unit := do
  let pending := (← get).rpmsgInput
  modify (drained libevent r)
  onHandler (ConfdEpHandler.handleRpmsgRead kernel { r with pending := pending })

def handleConfdRead (a : Answer) : EStateM Fault ConfdProxy Unit := do
  let pending := (← get).confdInput
  if a.drains then
    modify fun s => { s with confdRxBuf := pending, confdInput := [] }
    match a.writes with
    | none => throw (.thrown (.runtimeError "failed to write confd->m4 message"))
    | some short =>
        modify fun s => { s with
          remote := s.remote ++ [pending.take (pending.length - short)] }
  else
    modify fun s => { s with confdRxBuf := resize s.confdRxBuf pending.length }
    throw (.thrown (.runtimeError "failed to drain confd read buffer"))

/-- A callback runs when at least a header is pending, and logs an exception. -/
def step (kernel : Handles.Allocator Nat) (libevent : Libevent) :
    Event → EStateM Fault ConfdProxy (Except Exception Unit)
  | .rpmsg r => do
      modify fun s => { s with rpmsgInput := s.rpmsgInput ++ r.pending }
      if (← get).rpmsgInput.length < headerSize then
        return .ok ()
      else
        catching (handleRpmsgRead kernel libevent r)
  | .confd a => do
      if (← get).reading then
        modify fun s => { s with confdInput := s.confdInput ++ a.bytes }
        if (← get).confdInput.length < headerSize then
          return .ok ()
        else
          catching (handleConfdRead a)
      else
        return .ok ()
  | .event flags => do
      modify fun s => { s with reading := s.reading && !libevent.stops flags }
      catching (onHandler (ConfdEpHandler.handleConfdEvent flags))

/-- The handler as its constructor leaves it. -/
def constructed (kernel : Handles.Allocator Nat) : ConfdProxy where
  handler := ConfdEpHandler.constructed kernel
  rpmsgInput := []
  confdInput := []
  confdRxBuf := []
  remote := []
  reading := true

/-! ## Two relays -/

/-- What becomes of the bytes of a request that are enough for a callback. -/
def requestFate (closed : Bool) (r : Request) : Fate :=
  if r.drains then
    if (closed = true → r.Reconnects) ∧ r.accepts = true then
      .passes 0
    else
      .loses
  else
    .keeps

def answerFate (a : Answer) : Fate :=
  if a.drains then
    match a.writes with
    | none => .loses
    | some short => .passes short
  else
    .keeps

/-- The proxy as two relays.  `closed` is set from the end of a connection to
the next request that is drained, and `offered` is all that confd sent. -/
structure Channels where
  toConfd : Relay Byte headerSize
  toRemote : Relay Byte headerSize
  closed : Bool
  reading : Bool
  offered : List Byte
  heard : toRemote.arrived.Sublist offered

namespace Channels

def fresh : Channels where
  toConfd := .empty Byte headerSize
  toRemote := .empty Byte headerSize
  closed := false
  reading := true
  offered := []
  heard := .refl _

/-- A request that is drained, while the connection is closed or not. -/
def request (libevent : Libevent) (r : Request) (c : Channels) : Channels :=
  let fate := requestFate c.closed r
  let stays := decide (c.toConfd.Stays r.pending fate)
  { c with
    toConfd := c.toConfd.arrive r.pending fate
    closed := c.closed && stays
    reading := c.reading ||
      (c.closed && !stays && r.Reconnects && libevent.resumes) }

/-- What confd sends is heard while it is read. -/
def answer (a : Answer) (c : Channels) : Channels :=
  if c.reading then
    { c with
      toRemote := c.toRemote.arrive a.bytes (answerFate a)
      offered := c.offered ++ a.bytes
      heard := by
        rw [Relay.arrived_arrive]
        exact c.heard.append (List.Sublist.refl _) }
  else
    { c with
      offered := c.offered ++ a.bytes
      heard := c.heard.trans (List.sublist_append_left _ _) }

@[simp] theorem toConfd_answer (a : Answer) (c : Channels) :
    (c.answer a).toConfd = c.toConfd := by
  unfold answer
  split <;> rfl

@[simp] theorem closed_answer (a : Answer) (c : Channels) : (c.answer a).closed = c.closed := by
  unfold answer
  split <;> rfl

@[simp] theorem reading_answer (a : Answer) (c : Channels) :
    (c.answer a).reading = c.reading := by
  unfold answer
  split <;> rfl

@[simp] theorem offered_answer (a : Answer) (c : Channels) :
    (c.answer a).offered = c.offered ++ a.bytes := by
  unfold answer
  split <;> rfl

theorem toRemote_answer_of_reading {c : Channels} (h : c.reading = true) (a : Answer) :
    (c.answer a).toRemote = c.toRemote.arrive a.bytes (answerFate a) := by
  unfold answer
  rw [if_pos h]

theorem toRemote_answer_of_deaf {c : Channels} (h : c.reading = false) (a : Answer) :
    (c.answer a).toRemote = c.toRemote := by
  unfold answer
  rw [if_neg (by rw [h]; exact Bool.false_ne_true)]

def step (libevent : Libevent) (c : Channels) : Event → Channels
  | .rpmsg r => c.request libevent r
  | .confd a => c.answer a
  | .event flags => { c with
      closed := c.closed || flags.eof
      reading := c.reading && !libevent.stops flags }

def after (libevent : Libevent) (c : Channels) (xs : List Event) : Channels :=
  xs.foldl (step libevent) c

end Channels

/-! ## Refinement -/

section Handler

variable {s : ConfdEpHandler} {r : Request}

theorem forward_returns (h : s.bevFd.isSome = true) (r : Request) :
    ∃ w t, (catching (ConfdEpHandler.forward r)).run s = .ok w t ∧
      t.bevFd.isSome = true ∧ t.needsNewSocket = s.needsNewSocket ∧
      t.queued.map Prod.snd
        = s.queued.map Prod.snd ++ if r.accepts = true then [r.pending] else [] := by
  obtain ⟨fd, hfd⟩ := Option.isSome_iff_exists.mp h
  have hrun := ConfdEpHandler.forward_run (r := r) hfd
  cases haccepts : r.accepts with
  | true =>
      rw [haccepts, if_pos rfl] at hrun
      refine ⟨_, _, catching_run_ok hrun, h, rfl, ?_⟩
      simp [ConfdEpHandler.queue]
  | false =>
      rw [haccepts, if_neg Bool.false_ne_true] at hrun
      exact ⟨_, _, catching_run_thrown hrun, h, rfl, (List.append_nil _).symm⟩

/-- Nothing goes out of a request that stays or is lost. -/
theorem requestFate_out (closed : Bool) (r : Request) :
    ((requestFate closed r).out r.pending).toList
      = if r.drains = true ∧ (closed = true → r.Reconnects) ∧ r.accepts = true then
          [r.pending]
        else
          [] := by
  unfold requestFate
  cases hdrains : r.drains with
  | false => simp [Fate.out]
  | true =>
      by_cases h : (closed = true → r.Reconnects) ∧ r.accepts = true
      · rw [if_pos rfl, if_pos h, if_pos ⟨rfl, h⟩]
        simp [Fate.out]
      · rw [if_pos rfl, if_neg h, if_neg fun hpasses => h hpasses.2]
        rfl

/-- The bytes of a request that is drained are gone once reconnecting fails. -/
theorem reconnect_returns (kernel : Handles.Allocator Nat) (h : s.bevFd.isSome = true)
    (hflag : s.needsNewSocket = true) (hr : ¬ r.Reconnects) :
    ∃ e t, (ConfdEpHandler.reconnect kernel r).run s = .error (.thrown e) t ∧
      t.bevFd.isSome = true ∧ t.needsNewSocket = false ∧ t.queued = s.queued := by
  cases hdial : r.dial with
  | some failing =>
      obtain ⟨e, ops, hrun, _⟩ := ConfdEpHandler.reconnect_run_of_dial kernel hflag hdial
      exact ⟨e, _, hrun, h, rfl, rfl⟩
  | none =>
      have hsets : r.setsFd = false := by
        cases hs : r.setsFd with
        | false => rfl
        | true => exact absurd ⟨hdial, hs⟩ hr
      exact ⟨_, _, ConfdEpHandler.reconnect_run_of_setsFd kernel hflag hdial hsets, h, rfl, rfl⟩

/-- A request leaves the handler with a buffer event, clears the flag when it
is drained, and queues its bytes as their fate says. -/
theorem handleRpmsgRead_returns (kernel : Handles.Allocator Nat) (h : s.bevFd.isSome = true)
    (r : Request) :
    ∃ w t, (catching (ConfdEpHandler.handleRpmsgRead kernel r)).run s = .ok w t ∧
      t.bevFd.isSome = true ∧ t.needsNewSocket = (s.needsNewSocket && !r.drains) ∧
      t.queued.map Prod.snd = s.queued.map Prod.snd
        ++ ((requestFate s.needsNewSocket r).out r.pending).toList := by
  rw [requestFate_out]
  cases hdrains : r.drains with
  | false =>
      refine ⟨_, _, catching_run_thrown
        (ConfdEpHandler.handleRpmsgRead_run_of_not_drains kernel hdrains), h, ?_, ?_⟩
      · simp
      · simp
  | true =>
      rw [catching_run_congr (ConfdEpHandler.handleRpmsgRead_run_of_drains kernel hdrains)]
      rcases Bool.eq_false_or_eq_true s.needsNewSocket with hflag | hflag
      · by_cases hr : r.Reconnects
        · obtain ⟨w, t, ht, hbev, hclear, hqueued⟩ := forward_returns
            (s := ConfdEpHandler.reconnected kernel { s with rpmsgRxBuf := r.pending }) rfl r
          refine ⟨w, t, ?_, hbev, ?_, ?_⟩
          · rw [← ht]
            exact catching_run_congr
              (run_bind_of_ok (ConfdEpHandler.reconnect_run_of_reconnects kernel hflag hr))
          · rw [hclear]
            simp [ConfdEpHandler.reconnected]
          · rw [hqueued]
            simp [hr, ConfdEpHandler.reconnected]
        · obtain ⟨e, t, ht, hbev, hclear, hqueued⟩ := reconnect_returns kernel
            (s := { s with rpmsgRxBuf := r.pending }) h hflag hr
          refine ⟨_, t, catching_run_thrown (run_bind_of_error ht), hbev, ?_, ?_⟩
          · rw [hclear]
            simp
          · rw [hqueued]
            simp [hflag, hr]
      · obtain ⟨w, t, ht, hbev, hclear, hqueued⟩ := forward_returns
          (s := { s with rpmsgRxBuf := r.pending }) h r
        refine ⟨w, t, ?_, hbev, ?_, ?_⟩
        · rw [← ht]
          exact catching_run_congr
            (run_bind_of_ok (ConfdEpHandler.reconnect_run_of_clear kernel r hflag))
        · rw [hclear]
          simp [hflag]
        · rw [hqueued]
          simp [hflag]

end Handler

/-- The relays hold what the buffer events have pending, and passed what the
handler queued for confd and wrote to the endpoint. -/
structure Refines (s : ConfdProxy) (c : Channels) : Prop where
  bev : s.handler.bevFd.isSome = true
  queued : s.handler.queued.map Prod.snd = c.toConfd.passed
  rpmsgInput : s.rpmsgInput = c.toConfd.held
  remote : s.remote = c.toRemote.passed
  confdInput : s.confdInput = c.toRemote.held
  closed : s.handler.needsNewSocket = c.closed
  reading : s.reading = c.reading

section Steps

variable {kernel : Handles.Allocator Nat} {libevent : Libevent} {s : ConfdProxy} {c : Channels}

theorem onHandler_returns {α : Type} {m : EStateM Fault ConfdEpHandler α}
    {w : Except Exception α} {t : ConfdEpHandler} (h : (catching m).run s.handler = .ok w t) :
    (catching (onHandler m)).run s = .ok w { s with handler := t } := by
  rcases catching_run_eq_ok h with ⟨a, hm, rfl⟩ | ⟨e, hm, rfl⟩
  · refine catching_run_ok ?_
    simp only [onHandler, EStateM.run] at hm ⊢
    rw [hm]
  · refine catching_run_thrown ?_
    simp only [onHandler, EStateM.run] at hm ⊢
    rw [hm]

variable (kernel libevent) in
theorem handleRpmsgRead_run (r : Request) {w : Except Exception Unit} {t : ConfdEpHandler}
    (h : (catching (ConfdEpHandler.handleRpmsgRead kernel
      { r with pending := s.rpmsgInput })).run s.handler = .ok w t) :
    (catching (handleRpmsgRead kernel libevent r)).run s
      = .ok w { drained libevent r s with handler := t } := by
  have hrun : (handleRpmsgRead kernel libevent r).run s
      = (onHandler (ConfdEpHandler.handleRpmsgRead kernel
          { r with pending := s.rpmsgInput })).run (drained libevent r s) := rfl
  rw [catching_run_congr hrun]
  exact onHandler_returns (s := drained libevent r s) h

theorem requestFate_eq_keeps_iff {closed : Bool} {r : Request} :
    requestFate closed r = .keeps ↔ r.drains = false := by
  unfold requestFate
  cases r.drains with
  | false => simp
  | true =>
      rw [if_pos rfl]
      split <;> simp

variable (kernel libevent) in
theorem refines_request (h : Refines s c) (r : Request) :
    ∃ w t, (step kernel libevent (.rpmsg r)).run s = .ok w t ∧
      Refines t (c.request libevent r) := by
  have hpending : s.rpmsgInput ++ r.pending = c.toConfd.held ++ r.pending := by rw [h.rpmsgInput]
  by_cases hlt : (s.rpmsgInput ++ r.pending).length < headerSize
  · have hstays : c.toConfd.Stays r.pending (requestFate c.closed r) := by
      rw [hpending] at hlt
      exact .inl hlt
    refine ⟨.ok (), { s with rpmsgInput := s.rpmsgInput ++ r.pending }, ?_, ?_⟩
    · rw [step]
      refine (run_bind_of_ok rfl).trans ?_
      rw [run_get_bind, run_ite, if_pos hlt]
      rfl
    · rw [hpending] at hlt
      exact {
        bev := h.bev
        queued := h.queued.trans (Relay.passed_arrive_of_lt hlt).symm
        rpmsgInput := hpending.trans (Relay.held_arrive_of_lt hlt).symm
        remote := h.remote
        confdInput := h.confdInput
        closed := by simp [Channels.request, hstays, h.closed]
        reading := by simp [Channels.request, hstays, h.reading] }
  · have hle : headerSize ≤ (c.toConfd.held ++ r.pending).length := by
      rw [← hpending]
      exact Nat.not_lt.mp hlt
    have hstays : c.toConfd.Stays r.pending (requestFate c.closed r) ↔ r.drains = false :=
      (Relay.stays_iff_of_le hle).trans requestFate_eq_keeps_iff
    obtain ⟨w, t, ht, hbev, hclear, hqueued⟩ := handleRpmsgRead_returns kernel h.bev
      { r with pending := s.rpmsgInput ++ r.pending }
    refine ⟨w, { drained libevent r { s with rpmsgInput := s.rpmsgInput ++ r.pending } with
      handler := t }, ?_, ?_⟩
    · rw [step]
      refine (run_bind_of_ok rfl).trans ?_
      rw [run_get_bind, run_ite, if_neg hlt]
      exact handleRpmsgRead_run kernel libevent r ht
    · exact {
        bev := hbev
        queued := by
          rw [hqueued, h.queued, h.closed, hpending]
          exact (Relay.passed_arrive_of_le hle).symm
        rpmsgInput := by
          rw [drained, hpending]
          refine Eq.trans ?_ (Relay.held_arrive_of_le hle).symm
          cases hdrains : r.drains <;> simp [requestFate_eq_keeps_iff, hdrains]
        remote := h.remote
        confdInput := h.confdInput
        closed := by
          rw [hclear, h.closed]
          cases hdrains : r.drains <;> simp [Channels.request, hstays, hdrains]
        reading := by
          simp only [drained, renews, Channels.request, h.reading, h.closed, hstays]
          cases hdrains : r.drains <;> simp }

/-- What confd sent is written as its fate says, and stays if it is not drained. -/
theorem handleConfdRead_returns (s : ConfdProxy) (a : Answer) :
    ∃ w t, (catching (handleConfdRead a)).run s = .ok w t ∧
      t.handler = s.handler ∧ t.rpmsgInput = s.rpmsgInput ∧ t.reading = s.reading ∧
      t.confdInput = (if answerFate a = .keeps then s.confdInput else []) ∧
      t.remote = s.remote ++ ((answerFate a).out s.confdInput).toList := by
  cases hdrains : a.drains with
  | false =>
      have hfate : answerFate a = .keeps := by simp [answerFate, hdrains]
      have hrun : (handleConfdRead a).run s
          = .error (.thrown (.runtimeError "failed to drain confd read buffer"))
              { s with confdRxBuf := resize s.confdRxBuf s.confdInput.length } := by
        rw [handleConfdRead, run_get_bind, run_ite, hdrains]
        rfl
      refine ⟨_, _, catching_run_thrown hrun, rfl, rfl, rfl, ?_, ?_⟩
      · rw [hfate, if_pos rfl]
      · rw [hfate]
        exact (List.append_nil _).symm
  | true =>
      cases hwrites : a.writes with
      | none =>
          have hfate : answerFate a = .loses := by simp [answerFate, hdrains, hwrites]
          have hrun : (handleConfdRead a).run s
              = .error (.thrown (.runtimeError "failed to write confd->m4 message"))
                  { s with confdRxBuf := s.confdInput, confdInput := [] } := by
            rw [handleConfdRead, run_get_bind, run_ite, hdrains, hwrites]
            rfl
          refine ⟨_, _, catching_run_thrown hrun, rfl, rfl, rfl, ?_, ?_⟩
          · rw [hfate]
            rfl
          · rw [hfate]
            exact (List.append_nil _).symm
      | some short =>
          have hfate : answerFate a = .passes short := by simp [answerFate, hdrains, hwrites]
          have hrun : (handleConfdRead a).run s = .ok () { s with
              confdRxBuf := s.confdInput
              confdInput := []
              remote := s.remote ++ [s.confdInput.take (s.confdInput.length - short)] } := by
            rw [handleConfdRead, run_get_bind, run_ite, hdrains, hwrites]
            rfl
          refine ⟨_, _, catching_run_ok hrun, rfl, rfl, rfl, ?_, ?_⟩
          · rw [hfate]
            rfl
          · rw [hfate]
            rfl

variable (kernel libevent) in
theorem refines_answer (h : Refines s c) (a : Answer) :
    ∃ w t, (step kernel libevent (.confd a)).run s = .ok w t ∧ Refines t (c.answer a) := by
  have hpending : s.confdInput ++ a.bytes = c.toRemote.held ++ a.bytes := by rw [h.confdInput]
  rcases Bool.eq_false_or_eq_true s.reading with hreading | hreading
  · have htoRemote := Channels.toRemote_answer_of_reading (h.reading.symm.trans hreading) a
    have hstep : (step kernel libevent (.confd a)).run s
        = (if (s.confdInput ++ a.bytes).length < headerSize then
            (pure (.ok ()) : EStateM Fault ConfdProxy (Except Exception Unit))
          else
            catching (handleConfdRead a)).run
              { s with confdInput := s.confdInput ++ a.bytes } := by
      rw [step, run_get_bind, run_ite, if_pos hreading]
      rfl
    by_cases hlt : (s.confdInput ++ a.bytes).length < headerSize
    · refine ⟨.ok (), { s with confdInput := s.confdInput ++ a.bytes }, ?_, ?_⟩
      · rw [hstep, if_pos hlt]
        rfl
      · rw [hpending] at hlt
        exact {
          bev := h.bev
          queued := by rw [Channels.toConfd_answer, h.queued]
          rpmsgInput := by rw [Channels.toConfd_answer, h.rpmsgInput]
          remote := by rw [htoRemote, h.remote, Relay.passed_arrive_of_lt hlt]
          confdInput := by rw [htoRemote, hpending, Relay.held_arrive_of_lt hlt]
          closed := by rw [Channels.closed_answer, h.closed]
          reading := by rw [Channels.reading_answer, h.reading] }
    · obtain ⟨w, t, ht, hhandler, hrpmsg, hread, hconfd, hremote⟩ := handleConfdRead_returns
        { s with confdInput := s.confdInput ++ a.bytes } a
      have hle : headerSize ≤ (c.toRemote.held ++ a.bytes).length := by
        rw [← hpending]
        exact Nat.not_lt.mp hlt
      refine ⟨w, t, ?_, ?_⟩
      · rw [hstep, if_neg hlt]
        exact ht
      · exact {
          bev := by rw [hhandler, h.bev]
          queued := by rw [hhandler, Channels.toConfd_answer, h.queued]
          rpmsgInput := by rw [hrpmsg, Channels.toConfd_answer, h.rpmsgInput]
          remote := by rw [hremote, htoRemote, hpending, h.remote, Relay.passed_arrive_of_le hle]
          confdInput := by rw [hconfd, htoRemote, hpending, Relay.held_arrive_of_le hle]
          closed := by rw [hhandler, Channels.closed_answer, h.closed]
          reading := by rw [hread, Channels.reading_answer, h.reading] }
  · have htoRemote := Channels.toRemote_answer_of_deaf (h.reading.symm.trans hreading) a
    refine ⟨.ok (), s, ?_, ?_⟩
    · rw [step, run_get_bind, run_ite, hreading]
      rfl
    · exact {
        bev := h.bev
        queued := by rw [Channels.toConfd_answer, h.queued]
        rpmsgInput := by rw [Channels.toConfd_answer, h.rpmsgInput]
        remote := by rw [htoRemote, h.remote]
        confdInput := by rw [htoRemote, h.confdInput]
        closed := by rw [Channels.closed_answer, h.closed]
        reading := by rw [Channels.reading_answer, h.reading] }

@[simp] theorem bevFd_report (s : ConfdEpHandler) : s.report.bevFd = s.bevFd := by
  unfold ConfdEpHandler.report
  split <;> rfl

@[simp] theorem queued_report (s : ConfdEpHandler) : s.report.queued = s.queued := by
  unfold ConfdEpHandler.report
  split <;> rfl

theorem handleConfdEvent_returns (s : ConfdEpHandler) (flags : BevFlags) :
    ∃ t, (catching (ConfdEpHandler.handleConfdEvent flags)).run s = .ok (.ok ()) t ∧
      t.bevFd = s.bevFd ∧ t.queued = s.queued ∧
      t.needsNewSocket = (s.needsNewSocket || flags.eof) := by
  cases heof : flags.eof with
  | true =>
      refine ⟨_, catching_run_ok (ConfdEpHandler.handleConfdEvent_run_eof heof), ?_, ?_, ?_⟩
      · exact bevFd_report s
      · exact queued_report s
      · exact (Bool.or_true _).symm
  | false =>
      cases herror : flags.error with
      | true =>
          refine ⟨_, catching_run_ok (ConfdEpHandler.handleConfdEvent_run_error heof herror),
            bevFd_report s, queued_report s, ?_⟩
          simp
      | false =>
          refine ⟨s, catching_run_ok (ConfdEpHandler.handleConfdEvent_run_other heof herror),
            rfl, rfl, ?_⟩
          simp

variable (kernel libevent) in
/-- The two relays do what the proxy does, and no exception leaves a callback. -/
theorem refines_step (h : Refines s c) (x : Event) :
    ∃ w t, (step kernel libevent x).run s = .ok w t ∧ Refines t (c.step libevent x) := by
  cases x with
  | rpmsg r => exact refines_request kernel libevent h r
  | confd a => exact refines_answer kernel libevent h a
  | event flags =>
      obtain ⟨t, ht, hbev, hqueued, hflag⟩ := handleConfdEvent_returns s.handler flags
      refine ⟨.ok (), { s with
        reading := s.reading && !libevent.stops flags
        handler := t }, ?_, ?_⟩
      · rw [step]
        refine (run_bind_of_ok rfl).trans ?_
        exact onHandler_returns ht
      · exact {
          bev := by rw [hbev, h.bev]
          queued := by rw [hqueued, h.queued]; rfl
          rpmsgInput := h.rpmsgInput
          remote := h.remote
          confdInput := h.confdInput
          closed := by rw [hflag, h.closed]; rfl
          reading := by rw [h.reading]; rfl }

end Steps

/-! ## Lossless steps -/

/-- A batch that is drained goes out whole, and confd says nothing while its
connection is not read. -/
def Passes (s : ConfdProxy) : Event → Prop
  | .rpmsg r => headerSize ≤ (s.rpmsgInput ++ r.pending).length → r.drains = true →
      (s.handler.needsNewSocket = true → r.Reconnects) ∧ r.accepts = true
  | .confd a => (a.bytes ≠ [] → s.reading = true) ∧
      (s.reading = true → headerSize ≤ (s.confdInput ++ a.bytes).length → a.drains = true →
        a.writes = some 0)
  | .event _ => True

namespace Channels

/-- Every batch went out whole, and all that confd sent was heard. -/
structure Lossless (c : Channels) : Prop where
  toConfd : c.toConfd.Whole
  toRemote : c.toRemote.Whole
  heardAll : c.toRemote.arrived = c.offered

end Channels

section Losses

variable {libevent : Libevent} {s : ConfdProxy} {c : Channels}

theorem lossless_request_iff (h : Refines s c) (r : Request) :
    (c.request libevent r).Lossless ↔ c.Lossless ∧ s.Passes (.rpmsg r) := by
  have hwhole : (c.request libevent r).toConfd.Whole ↔
      c.toConfd.Whole ∧ s.Passes (.rpmsg r) := by
    show (c.toConfd.arrive r.pending (requestFate c.closed r)).Whole ↔ _
    rw [Relay.whole_arrive_iff, Passes, h.rpmsgInput, h.closed]
    refine and_congr_right fun _ => ?_
    rw [Relay.Stays, not_or, Nat.not_lt, and_imp]
    refine imp_congr_right fun hle => ?_
    unfold requestFate
    cases hdrains : r.drains with
    | false => simp
    | true =>
        by_cases hr : (c.closed = true → r.Reconnects) ∧ r.accepts = true
        · rw [if_pos rfl, if_pos hr]
          exact ⟨fun _ _ => hr, fun _ _ => rfl⟩
        · rw [if_pos rfl, if_neg hr]
          have hkeeps : Fate.loses ≠ .keeps := by decide
          have hwhole : Fate.loses ≠ .passes 0 := by decide
          exact ⟨fun h' => absurd (h' hkeeps) hwhole, fun h' => absurd (h' rfl) hr⟩
  constructor
  · rintro ⟨htoConfd, htoRemote, hheard⟩
    obtain ⟨hold, hpasses⟩ := hwhole.mp htoConfd
    exact ⟨⟨hold, htoRemote, hheard⟩, hpasses⟩
  · rintro ⟨⟨hold, htoRemote, hheard⟩, hpasses⟩
    exact ⟨hwhole.mpr ⟨hold, hpasses⟩, htoRemote, hheard⟩

theorem answerFate_eq_keeps_iff {a : Answer} : answerFate a = .keeps ↔ a.drains = false := by
  unfold answerFate
  cases a.drains with
  | false => simp
  | true =>
      rw [if_pos rfl]
      split <;> simp

theorem answerFate_eq_passes_zero_iff {a : Answer} :
    answerFate a = .passes 0 ↔ a.drains = true ∧ a.writes = some 0 := by
  unfold answerFate
  cases a.drains with
  | false => simp
  | true =>
      rw [if_pos rfl]
      split
      · rename_i hwrites
        simp [hwrites]
      · rename_i short hwrites
        simp [hwrites]

/-- What is not heard is missing for good. -/
theorem heardAll_answer_iff (c : Channels) (a : Answer) :
    (c.answer a).toRemote.arrived = (c.answer a).offered ↔
      c.toRemote.arrived = c.offered ∧ (a.bytes ≠ [] → c.reading = true) := by
  rw [Channels.offered_answer]
  cases hreading : c.reading with
  | true =>
      rw [Channels.toRemote_answer_of_reading hreading, Relay.arrived_arrive,
        List.append_cancel_right_eq]
      simp
  | false =>
      rw [Channels.toRemote_answer_of_deaf hreading]
      constructor
      · intro h
        have hle := c.heard.length_le
        have hlength := congrArg List.length h
        rw [List.length_append] at hlength
        have hbytes : a.bytes = [] := List.length_eq_zero_iff.mp (by omega)
        rw [hbytes, List.append_nil] at h
        exact ⟨h, fun hne => absurd hbytes hne⟩
      · rintro ⟨h, hdeaf⟩
        have hbytes : a.bytes = [] := by
          by_contra hne
          exact Bool.false_ne_true (hdeaf hne)
        rw [hbytes, List.append_nil, h]

theorem lossless_answer_iff (h : Refines s c) (a : Answer) :
    (c.answer a).Lossless ↔ c.Lossless ∧ s.Passes (.confd a) := by
  have hwhole : (c.answer a).toRemote.Whole ↔ c.toRemote.Whole ∧
      (s.reading = true → headerSize ≤ (s.confdInput ++ a.bytes).length → a.drains = true →
        a.writes = some 0) := by
    rw [h.reading, h.confdInput]
    cases hreading : c.reading with
    | false =>
        rw [Channels.toRemote_answer_of_deaf hreading]
        simp
    | true =>
        rw [Channels.toRemote_answer_of_reading hreading, Relay.whole_arrive_iff, Relay.Stays,
          not_or, Nat.not_lt, and_imp, answerFate_eq_keeps_iff, answerFate_eq_passes_zero_iff,
          Bool.not_eq_false]
        refine and_congr_right fun _ => ?_
        constructor
        · intro hpasses _ hle hdrains
          exact (hpasses hle hdrains).2
        · intro hpasses hle hdrains
          exact ⟨hdrains, hpasses rfl hle hdrains⟩
  have hheard := heardAll_answer_iff c a
  rw [← h.reading] at hheard
  constructor
  · rintro ⟨htoConfd, htoRemote, hall⟩
    rw [Channels.toConfd_answer] at htoConfd
    exact ⟨⟨htoConfd, (hwhole.mp htoRemote).1, (hheard.mp hall).1⟩, (hheard.mp hall).2,
      (hwhole.mp htoRemote).2⟩
  · rintro ⟨⟨htoConfd, htoRemote, hall⟩, hreads, hwrites⟩
    refine ⟨?_, hwhole.mpr ⟨htoRemote, hwrites⟩, hheard.mpr ⟨hall, hreads⟩⟩
    rw [Channels.toConfd_answer]
    exact htoConfd

theorem lossless_step_iff (h : Refines s c) (x : Event) :
    (c.step libevent x).Lossless ↔ c.Lossless ∧ s.Passes x := by
  cases x with
  | rpmsg r => exact lossless_request_iff h r
  | confd a => exact lossless_answer_iff h a
  | event flags =>
      constructor
      · rintro ⟨htoConfd, htoRemote, hall⟩
        exact ⟨⟨htoConfd, htoRemote, hall⟩, trivial⟩
      · rintro ⟨⟨htoConfd, htoRemote, hall⟩, _⟩
        exact ⟨htoConfd, htoRemote, hall⟩

end Losses

/-! ## Runs -/

/-- What the coprocessor sent. -/
def fromRemote (xs : List Event) : List Byte :=
  xs.flatMap fun
    | .rpmsg r => r.pending
    | _ => []

/-- What confd sent. -/
def fromConfd (xs : List Event) : List Byte :=
  xs.flatMap fun
    | .confd a => a.bytes
    | _ => []

/-- No byte is left where it is because draining it failed. -/
def Drains : Event → Prop
  | .rpmsg r => r.drains = true
  | .confd a => a.drains = true
  | .event _ => True

/-- What was queued for confd, and what was written to the endpoint. -/
def sentToConfd (s : ConfdProxy) : List Byte := (s.handler.queued.map Prod.snd).flatten

def sentToRemote (s : ConfdProxy) : List Byte := s.remote.flatten

section Runs

variable {kernel : Handles.Allocator Nat} {libevent : Libevent} {s : ConfdProxy} {c : Channels}

theorem refines_constructed (kernel : Handles.Allocator Nat) :
    Refines (constructed kernel) .fresh := ⟨rfl, rfl, rfl, rfl, rfl, rfl, rfl⟩

variable (kernel libevent) in
theorem refines_stateAfter (h : Refines s c) (x : Event) :
    Refines (stateAfter (step kernel libevent x) s) (c.step libevent x) := by
  obtain ⟨w, t, ht, hrefines⟩ := refines_step kernel libevent h x
  rw [stateAfter_of_ok ht]
  exact hrefines

variable (kernel libevent) in
theorem refines_run (h : Refines s c) (xs : List Event) :
    (∃ answers, Steps (step kernel libevent) s xs answers (final (step kernel libevent) s xs)) ∧
      Refines (final (step kernel libevent) s xs) (c.after libevent xs) :=
  steps_of_simulation (R := Refines) (P := fun _ _ => True)
    (fun _ _ x hs _ => refines_step kernel libevent hs x) h
    (wherever_of_forall (fun _ _ _ => trivial) s)

variable (kernel libevent) in
theorem lossless_after_iff (h : Refines s c) (xs : List Event) :
    (c.after libevent xs).Lossless ↔
      c.Lossless ∧ Wherever (step kernel libevent) Passes s xs := by
  induction xs generalizing s c with
  | nil => exact (and_iff_left trivial).symm
  | cons x xs ih =>
      calc ((c.step libevent x).after libevent xs).Lossless
          ↔ (c.step libevent x).Lossless ∧ Wherever (step kernel libevent) Passes
              (stateAfter (step kernel libevent x) s) xs :=
            ih (refines_stateAfter kernel libevent h x)
        _ ↔ (c.Lossless ∧ s.Passes x) ∧ Wherever (step kernel libevent) Passes
              (stateAfter (step kernel libevent x) s) xs := by rw [lossless_step_iff h]
        _ ↔ _ := and_assoc

variable (libevent) in
theorem arrived_after (c : Channels) (xs : List Event) :
    (c.after libevent xs).toConfd.arrived = c.toConfd.arrived ++ fromRemote xs ∧
      (c.after libevent xs).offered = c.offered ++ fromConfd xs := by
  induction xs generalizing c with
  | nil => exact ⟨(List.append_nil _).symm, (List.append_nil _).symm⟩
  | cons x xs ih =>
      obtain ⟨harrived, hoffered⟩ := ih (c.step libevent x)
      refine ⟨harrived.trans ?_, hoffered.trans ?_⟩
      · cases x with
        | rpmsg r =>
            have hstep : (c.step libevent (.rpmsg r)).toConfd.arrived
                = c.toConfd.arrived ++ r.pending := Relay.arrived_arrive _ _ _
            rw [hstep]
            exact List.append_assoc _ _ _
        | confd a =>
            have hstep : (c.step libevent (.confd a)).toConfd = c.toConfd :=
              Channels.toConfd_answer a c
            rw [hstep]
            rfl
        | event flags => rfl
      · cases x with
        | rpmsg r => rfl
        | confd a =>
            have hstep : (c.step libevent (.confd a)).offered = c.offered ++ a.bytes :=
              Channels.offered_answer a c
            rw [hstep]
            exact List.append_assoc _ _ _
        | event flags => rfl

/-- Both relays hold too little for a batch. -/
def Channels.Waits (c : Channels) : Prop :=
  c.toConfd.held.length < headerSize ∧ c.toRemote.held.length < headerSize

theorem waits_after (hc : c.Waits) {xs : List Event} (h : ∀ x ∈ xs, Drains x) :
    (c.after libevent xs).Waits := by
  have hpositive : 0 < headerSize := by decide
  induction xs generalizing c with
  | nil => exact hc
  | cons x xs ih =>
      refine ih ?_ fun y hy => h y (List.mem_cons_of_mem x hy)
      have hx : Drains x := h x List.mem_cons_self
      cases x with
      | rpmsg r =>
          have htaken : requestFate c.closed r ≠ .keeps := by
            rw [ne_eq, requestFate_eq_keeps_iff, Bool.not_eq_false]
            exact hx
          exact ⟨Relay.length_held_arrive_lt hpositive htaken, hc.2⟩
      | confd a =>
          have htaken : answerFate a ≠ .keeps := by
            rw [ne_eq, answerFate_eq_keeps_iff, Bool.not_eq_false]
            exact hx
          refine ⟨?_, ?_⟩
          · show (c.answer a).toConfd.held.length < headerSize
            rw [Channels.toConfd_answer]
            exact hc.1
          · show (c.answer a).toRemote.held.length < headerSize
            cases hreading : c.reading with
            | true =>
                rw [Channels.toRemote_answer_of_reading hreading]
                exact Relay.length_held_arrive_lt hpositive htaken
            | false =>
                rw [Channels.toRemote_answer_of_deaf hreading]
                exact hc.2
      | event flags => exact hc

/-- What went out to confd and what is pending there come from the coprocessor,
and nothing is missing exactly if every batch went out whole. -/
theorem Refines.toConfd_intact_iff (h : Refines s c) :
    s.sentToConfd ++ s.rpmsgInput = c.toConfd.arrived ↔ c.toConfd.Whole := by
  rw [sentToConfd, h.queued, h.rpmsgInput]
  exact Relay.intact_iff (by decide) c.toConfd

theorem Refines.toRemote_intact_iff (h : Refines s c) :
    s.sentToRemote ++ s.confdInput = c.offered ↔
      c.toRemote.Whole ∧ c.toRemote.arrived = c.offered := by
  rw [sentToRemote, h.remote, h.confdInput, ← Relay.intact_iff (by decide) c.toRemote]
  constructor
  · intro hintact
    -- between what went out and what confd sent lies what was heard
    have hout := c.toRemote.out_sublist
    rw [hintact] at hout
    have hall : c.toRemote.arrived = c.offered := c.heard.antisymm hout
    exact ⟨hintact.trans hall.symm, hall⟩
  · rintro ⟨hwhole, hall⟩
    exact hwhole.trans hall

/-- A connection that is not read stays so, and nothing more is heard. -/
theorem deaf_after (hresumes : libevent.resumes = false) (hc : c.reading = false)
    (xs : List Event) : (c.after libevent xs).toRemote = c.toRemote := by
  induction xs generalizing c with
  | nil => rfl
  | cons x xs ih =>
      cases x with
      | rpmsg r =>
          have hdeaf : (c.request libevent r).reading = false := by
            simp [Channels.request, hc, hresumes]
          exact ih hdeaf
      | confd a =>
          have hdeaf : (c.answer a).reading = false := (Channels.reading_answer a c).trans hc
          exact (ih hdeaf).trans (Channels.toRemote_answer_of_deaf hc a)
      | event flags =>
          have hdeaf : (c.step libevent (.event flags)).reading = false := by
            simp [Channels.step, hc]
          exact ih hdeaf

end Runs

/-- In every run of a handler that was constructed no exception leaves a
callback; what goes out in either direction, with what is pending, is what
arrived from the other side, in order and at most once; nothing of it is
missing exactly if every step passes what it drains; and where nothing fails to
drain less than a header is pending. -/
theorem forwarded (kernel : Handles.Allocator Nat) (libevent : Libevent) (xs : List Event) :
    let t := final (step kernel libevent) (constructed kernel) xs
    (∃ answers, Steps (step kernel libevent) (constructed kernel) xs answers t) ∧
      (t.sentToConfd ++ t.rpmsgInput).Sublist (fromRemote xs) ∧
      (t.sentToRemote ++ t.confdInput).Sublist (fromConfd xs) ∧
      ((t.sentToConfd ++ t.rpmsgInput = fromRemote xs ∧
          t.sentToRemote ++ t.confdInput = fromConfd xs) ↔
        Wherever (step kernel libevent) Passes (constructed kernel) xs) ∧
      ((∀ x ∈ xs, Drains x) →
        t.rpmsgInput.length < headerSize ∧ t.confdInput.length < headerSize) := by
  intro t
  have hfresh := refines_constructed kernel
  have hrun := refines_run kernel libevent hfresh xs
  have hrefines : Refines t (Channels.fresh.after libevent xs) := hrun.2
  obtain ⟨harrived, hoffered⟩ := arrived_after libevent .fresh xs
  have hremote : (Channels.fresh.after libevent xs).toConfd.arrived = fromRemote xs := harrived
  have hconfd : (Channels.fresh.after libevent xs).offered = fromConfd xs := hoffered
  refine ⟨hrun.1, ?_, ?_, ?_, ?_⟩
  · rw [sentToConfd, hrefines.queued, hrefines.rpmsgInput, ← hremote]
    exact Relay.out_sublist _
  · rw [sentToRemote, hrefines.remote, hrefines.confdInput, ← hconfd]
    exact (Relay.out_sublist _).trans (Channels.heard _)
  · have hfinal := lossless_after_iff kernel libevent hfresh xs
    have hlossless : Channels.fresh.Lossless :=
      ⟨Relay.whole_empty, Relay.whole_empty, rfl⟩
    rw [← hremote, ← hconfd, hrefines.toConfd_intact_iff, hrefines.toRemote_intact_iff]
    constructor
    · rintro ⟨htoConfd, htoRemote, hall⟩
      exact (hfinal.mp ⟨htoConfd, htoRemote, hall⟩).2
    · intro hpasses
      obtain ⟨htoConfd, htoRemote, hall⟩ := hfinal.mpr ⟨hlossless, hpasses⟩
      exact ⟨htoConfd, htoRemote, hall⟩
  · intro hdrains
    rw [hrefines.rpmsgInput, hrefines.confdInput]
    exact waits_after ⟨by decide, by decide⟩ hdrains

/-- If libevent stops reading from a connection at an event and does not start
again with the next one, no byte that confd sends after it gets anywhere,
whatever requests are forwarded in the meantime. -/
theorem silent_after (kernel : Handles.Allocator Nat) {libevent : Libevent} {flags : BevFlags}
    (hstops : libevent.stops flags = true) (hresumes : libevent.resumes = false)
    (xs ys : List Event) :
    let s := final (step kernel libevent) (constructed kernel) xs
    let t := final (step kernel libevent) (constructed kernel) (xs ++ .event flags :: ys)
    t.remote = s.remote ∧ t.confdInput = s.confdInput := by
  intro s t
  have hfresh := refines_constructed kernel
  have hs : Refines s (Channels.fresh.after libevent xs) :=
    (refines_run kernel libevent hfresh xs).2
  have ht : Refines t (Channels.fresh.after libevent (xs ++ .event flags :: ys)) :=
    (refines_run kernel libevent hfresh (xs ++ .event flags :: ys)).2
  have hsplit : Channels.fresh.after libevent (xs ++ .event flags :: ys)
      = ((Channels.fresh.after libevent xs).step libevent (.event flags)).after libevent ys := by
    rw [Channels.after, List.foldl_append]
    rfl
  have hdeaf : ((Channels.fresh.after libevent xs).step libevent (.event flags)).reading
      = false := by
    simp [Channels.step, hstops]
  have htoRemote : (Channels.fresh.after libevent (xs ++ .event flags :: ys)).toRemote
      = (Channels.fresh.after libevent xs).toRemote := by
    rw [hsplit]
    exact deaf_after hresumes hdeaf ys
  exact ⟨by rw [ht.remote, htoRemote, hs.remote],
    by rw [ht.confdInput, htoRemote, hs.confdInput]⟩

/-- confd is restarted and answers the next request. -/
theorem silent_after_restart :
    let request : Request := ⟨List.replicate 8 0x01, true, none, true, true⟩
    let s := final (step (.lowest 3) ⟨BevFlags.eof, false⟩) (constructed (.lowest 3)) []
    let t := final (step (.lowest 3) ⟨BevFlags.eof, false⟩) (constructed (.lowest 3))
      ([] ++ .event BEV_EVENT_EOF ::
        [.rpmsg request, .confd ⟨List.replicate 8 0x02, true, some 0⟩])
    t.remote = s.remote ∧ t.confdInput = s.confdInput :=
  silent_after (.lowest 3) (by decide) rfl [] _

end ConfdProxy

end Rpc
