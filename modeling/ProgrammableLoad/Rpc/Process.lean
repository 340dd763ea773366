/-
# `Rpc.Process` — pinballd's server in its event loop

The server accepts a socket, then makes it non-blocking, then builds the client
that owns it, and only then puts the client in the map.  The entry's destructor
closes the socket.  A callback runs only while its buffer event is enabled, and
an exception that leaves it ends the event loop.

The invariant is that the entries of the map are the accepted sockets that are
open.  A step breaks it only by an accept that fails after the socket was
accepted, which leaves the socket open and without an owner.
-/
import ProgrammableLoad.Theory.Runs
import ProgrammableLoad.Rpc.Client
import ProgrammableLoad.Rpc.RpcServer

namespace Rpc

open Cpp Cbor Led Program Handles Table

/-- What happens to a server.  A client is named by the key of its entry, in
pinballd the descriptor and in loadd the address of the buffer event. -/
inductive ServerInput where
  | accept (failing : Option AcceptStep)
  | read (client : Nat) (pending : List Byte) (drains : Bool)
  | event (client : Nat)

/-- A client was accepted and a later step failed. -/
def ServerInput.FailsLate : ServerInput → Prop
  | .accept (some .makeNonblocking) => True
  | .accept (some .createEvent) => True
  | .accept (some .enableEvent) => True
  | _ => False

theorem ServerInput.failsLate_of_ne {failing : AcceptStep} (h : failing ≠ .accept) :
    (ServerInput.accept (some failing)).FailsLate := by
  cases failing with
  | accept => exact absurd rfl h
  | _ => trivial

/-! ## pinballd -/

/-- The server with what it did to the clients' sockets, the clients whose
buffer events are enabled, and whether the event loop runs. -/
structure Process where
  server : Server
  descriptors : List (Use Nat)
  enabled : Finset Nat
  running : Bool

/-- A client whose constructor is done. -/
def Client.fresh : Client := ⟨[], [], [], false, false, false⟩

namespace Process

/-- `~Client` -/
def destroyClient (p : Process) (fd : Nat) : Process :=
  { p with
    enabled := p.enabled.erase fd
    descriptors := p.descriptors ++ [.closes fd] }

/-- `clients.emplace(fd, cl)`: a client whose key is taken is destroyed. -/
def emplaceClient (p : Process) (fd : Nat) (client : Client) : Process :=
  if fd ∈ p.server.clients then
    p.destroyClient fd
  else
    { p with server := { p.server with clients := p.server.clients.insert fd client } }

/-- The constructor of `Client`. -/
def constructClient (fd : Nat) (failing : Option AcceptStep) : EStateM Fault Process Unit :=
  if failing = some .createEvent then
    throw (.thrown AcceptStep.createEvent.error)
  else if failing = some .enableEvent then
    throw (.thrown AcceptStep.enableEvent.error)
  else
    modify fun p => { p with enabled := insert fd p.enabled }

/-- `failing` is the first step that fails, if any. -/
def acceptClient (kernel : Allocator Nat) (failing : Option AcceptStep) :
    EStateM Fault Process Unit := do
  if failing = some .accept then
    throw (.thrown AcceptStep.accept.error)
  else do
    let fd := kernel.next (← get).descriptors
    modify fun p => { p with descriptors := p.descriptors ++ [.opens fd] }
    if failing = some .makeNonblocking then
      throw (.thrown AcceptStep.makeNonblocking.error)
    else do
      constructClient fd failing
      modify fun p => p.emplaceClient fd Client.fresh

/-- `clients.erase(fd)`, of a client that is there. -/
def eraseClient (p : Process) (fd : Nat) : Process :=
  { p with server := { p.server with clients := p.server.clients.erase fd } }.destroyClient fd

def releaseClient (fd : Nat) : EStateM Fault Process Unit := do
  if fd ∈ (← get).server.clients then
    modify fun p => p.eraseClient fd
  else
    throw (.thrown (.invalidArgument s!"cannot remove nonexistent client {fd}"))

/-- A closed connection and an error are treated alike. -/
def bevEvent (fd : Nat) : EStateM Fault Process Unit := releaseClient fd

/-- What works on the server alone. -/
def onServer (m : EStateM Fault Server Unit) : EStateM Fault Process Unit := fun p =>
  match m.run p.server with
  | .ok _ server => .ok () { p with server := server }
  | .error e server => .error e { p with server := server }

/-- An exception that leaves the callback leaves the event loop. -/
def clientCallback (m : EStateM Fault Process Unit) :
    EStateM Fault Process (Except Exception Unit) := do
  match ← catching m with
  | .ok () => return .ok ()
  | .error e =>
      modify fun p => { p with running := false }
      return .error e

/-- One turn of the event loop; the answer is the exception, if there was one. -/
def step (kernel : Allocator Nat) (cbor : Libcbor) (table : IndicatorTable) (x : ServerInput) :
    EStateM Fault Process (Except Exception Unit) := do
  let p ← get
  if p.running then
    match x with
    | .accept failing => catching (acceptClient kernel failing)
    | .read fd pending drains =>
        if fd ∈ p.enabled then
          clientCallback (onServer (readEvent cbor table fd pending drains))
        else
          return .ok ()
    | .event fd =>
        if fd ∈ p.enabled then clientCallback (bevEvent fd) else return .ok ()
  else
    return .ok ()

/-- The server is up and has no clients. -/
def start (ledManager : LedManager) : Process := ⟨⟨∅, ledManager⟩, [], ∅, true⟩

/-- The map has one entry for each accepted socket that is open. -/
structure Registered (p : Process) : Prop where
  disciplined : Disciplined p.descriptors
  mem_clients_iff : ∀ fd, fd ∈ p.server.clients ↔ fd ∈ held p.descriptors

/-- A step leaves the map so, inserts under a new key, and finds the client it
removes. -/
def Accounts (kernel : Allocator Nat) (p : Process) (x : ServerInput)
    (answer : Except Exception Unit) (q : Process) : Prop :=
  q.Registered ∧ (x = .accept none → kernel.next p.descriptors ∉ p.server.clients) ∧
    ∀ fd, x = .event fd → answer = .ok ()

/-- No accept goes wrong after the socket was accepted. -/
def AcceptsWhole (p : Process) (x : ServerInput) (_ : Except Exception Unit) (_ : Process) :
    Prop := p.running = true → ¬ x.FailsLate

/-- The buffer events that are enabled are those of the entries. -/
structure Inv (p : Process) : Prop where
  registered : p.Registered
  mem_enabled_iff : ∀ fd, fd ∈ p.enabled ↔ fd ∈ p.server.clients

theorem inv_start (ledManager : LedManager) : (start ledManager).Inv where
  registered := ⟨.nil, fun fd => by simp [start]⟩
  mem_enabled_iff fd := by simp [start]

section Steps

variable {kernel : Allocator Nat} {cbor : Libcbor} {table : IndicatorTable} {p q : Process}
  {fd : Nat} {answer : Except Exception Unit}

/-- The process with a socket that was accepted. -/
def opened (kernel : Allocator Nat) (p : Process) : Process :=
  { p with descriptors := p.descriptors ++ [.opens (kernel.next p.descriptors)] }

/-- The process with a client that was accepted. -/
def accepted (kernel : Allocator Nat) (p : Process) : Process where
  server := { p.server with
    clients := p.server.clients.insert (kernel.next p.descriptors) Client.fresh }
  descriptors := p.descriptors ++ [.opens (kernel.next p.descriptors)]
  enabled := insert (kernel.next p.descriptors) p.enabled
  running := p.running

theorem acceptClient_run_none (h : p.Inv) :
    (acceptClient kernel none).run p = .ok () (p.accepted kernel) := by
  have hnot : kernel.next p.descriptors ∉ p.server.clients := by
    rw [h.registered.mem_clients_iff]
    exact kernel.fresh p.descriptors
  have hrun : (acceptClient kernel none).run p
      = .ok () ({ p with
          descriptors := p.descriptors ++ [Use.opens (kernel.next p.descriptors)]
          enabled := insert (kernel.next p.descriptors) p.enabled }.emplaceClient
            (kernel.next p.descriptors) Client.fresh) := rfl
  rw [hrun, emplaceClient, if_neg hnot]
  rfl

variable (kernel p) in
/-- An accept that fails late leaves the socket open. -/
theorem acceptClient_run_late {failing : Option AcceptStep}
    (h : (ServerInput.accept failing).FailsLate) :
    ∃ e, (acceptClient kernel failing).run p = .error (.thrown e) (p.opened kernel) := by
  rcases failing with _ | (_ | _ | _ | _)
  · exact absurd h id
  · exact absurd h id
  · exact ⟨_, rfl⟩
  · exact ⟨_, rfl⟩
  · exact ⟨_, rfl⟩

theorem not_registered_opened (h : p.Inv) : ¬ (p.opened kernel).Registered := by
  intro hopened
  have hmem := (hopened.mem_clients_iff (kernel.next p.descriptors)).mpr
    (by simp [opened, Use.after])
  exact kernel.fresh p.descriptors ((h.registered.mem_clients_iff _).mp hmem)

theorem inv_accepted (h : p.Inv) : (p.accepted kernel).Inv where
  registered := ⟨disciplined_opens kernel h.registered.disciplined, fun fd => by
    simp only [accepted, AList.mem_insert, held_snoc, Use.after, Finset.mem_insert,
      h.registered.mem_clients_iff]⟩
  mem_enabled_iff fd := by
    simp only [accepted, AList.mem_insert, Finset.mem_insert, h.mem_enabled_iff]

theorem inv_eraseClient (h : p.Inv) (hfd : fd ∈ p.server.clients) : (p.eraseClient fd).Inv where
  registered := by
    refine ⟨.snoc h.registered.disciplined ((h.registered.mem_clients_iff fd).mp hfd), ?_⟩
    intro other
    simp only [eraseClient, destroyClient, AList.mem_erase, held_snoc, Use.after, Finset.mem_erase,
      h.registered.mem_clients_iff]
  mem_enabled_iff other := by
    simp only [eraseClient, destroyClient, AList.mem_erase, Finset.mem_erase, h.mem_enabled_iff]

/-- What keeps the keys keeps the invariant. -/
theorem inv_of_mem_iff {server : Server} {running : Bool} (h : p.Inv)
    (hmem : ∀ fd, fd ∈ server.clients ↔ fd ∈ p.server.clients) :
    Inv { p with server := server, running := running } where
  registered := ⟨h.registered.disciplined, fun fd =>
    (hmem fd).trans (h.registered.mem_clients_iff fd)⟩
  mem_enabled_iff fd := (h.mem_enabled_iff fd).trans (hmem fd).symm

theorem mem_iff_of_keys {s t : Server} (h : t.clients.keys = s.clients.keys) (fd : Nat) :
    fd ∈ t.clients ↔ fd ∈ s.clients := by
  rw [AList.mem_keys, AList.mem_keys, h]

theorem clientCallback_run_eq_ok {m : EStateM Fault Process Unit}
    (h : (clientCallback m).run p = .ok answer q) :
    (m.run p = .ok () q ∧ answer = .ok ()) ∨
      ∃ e r, m.run p = .error (.thrown e) r ∧ answer = .error e ∧
        q = { r with running := false } := by
  obtain ⟨w, r, hcatching, h⟩ := run_bind_eq_ok.mp h
  rcases catching_run_eq_ok hcatching with ⟨_, hm, rfl⟩ | ⟨e, hm, rfl⟩
  · cases h
    exact .inl ⟨hm, rfl⟩
  · cases h
    exact .inr ⟨e, r, hm, rfl, rfl⟩

theorem stateAfter_onServer (m : EStateM Fault Server Unit) (p : Process) :
    stateAfter (onServer m) p = { p with server := stateAfter m p.server } := by
  simp only [stateAfter, onServer, EStateM.run]
  cases m p.server <;> rfl

/-- A read changes members of clients only. -/
theorem inv_read {pending : List Byte} {drains : Bool} (h : p.Inv)
    (hrun : (clientCallback (onServer (readEvent cbor table fd pending drains))).run p
      = .ok answer q) : q.Inv := by
  have hkeys := ((keeps_readEvent fd cbor table pending drains).stateAfter
    (s := p.server) ⟨rfl, fun _ _ => rfl⟩).1
  have hstate := stateAfter_onServer (readEvent cbor table fd pending drains) p
  rcases clientCallback_run_eq_ok hrun with ⟨hm, _⟩ | ⟨e, r, hm, _, rfl⟩
  · rw [stateAfter_of_ok hm] at hstate
    rw [hstate]
    exact inv_of_mem_iff (p := p) h (mem_iff_of_keys hkeys)
  · rw [stateAfter_of_error hm] at hstate
    rw [hstate]
    exact inv_of_mem_iff (p := p) h (mem_iff_of_keys hkeys)

/-- An event of a client whose buffer event is enabled erases it. -/
theorem clientCallback_bevEvent_run (h : p.Inv) (hfd : fd ∈ p.enabled) :
    (clientCallback (bevEvent fd)).run p = .ok (.ok ()) (p.eraseClient fd) := by
  have hmem := (h.mem_enabled_iff fd).mp hfd
  have hrelease : (bevEvent fd).run p = .ok () (p.eraseClient fd) := by
    rw [bevEvent, releaseClient, run_get_bind, run_ite, if_pos hmem]
    rfl
  rw [clientCallback, EStateM.run_bind, catching_run_ok hrelease]
  rfl

/-! ## Steps in which nothing fails -/

theorem step_accept_run (h : p.Inv) (hrunning : p.running = true) :
    (step kernel cbor table (.accept none)).run p = .ok (.ok ()) (p.accepted kernel) := by
  rw [step, run_get_bind, run_ite, if_pos hrunning]
  exact catching_run_ok (acceptClient_run_none h)

theorem step_event_run (h : p.Inv) (hrunning : p.running = true) :
    (step kernel cbor table (.event fd)).run p
      = .ok (.ok ()) (if fd ∈ p.server.clients then p.eraseClient fd else p) := by
  rw [step, run_get_bind, run_ite, if_pos hrunning]
  simp only [run_ite]
  by_cases hfd : fd ∈ p.enabled
  · rw [if_pos hfd, if_pos ((h.mem_enabled_iff fd).mp hfd)]
    exact clientCallback_bevEvent_run h hfd
  · rw [if_neg hfd, if_neg fun hmem => hfd ((h.mem_enabled_iff fd).mpr hmem)]
    rfl

theorem step_read_run {pending : List Byte} {drains : Bool} {server : Server} (h : p.Inv)
    (hrunning : p.running = true)
    (hread : (readEvent cbor table fd pending drains).run p.server = .ok () server) :
    (step kernel cbor table (.read fd pending drains)).run p
      = .ok (.ok ()) (if fd ∈ p.server.clients then { p with server := server } else p) := by
  have hserver : (onServer (readEvent cbor table fd pending drains)).run p
      = .ok () { p with server := server } := by
    simp only [onServer, EStateM.run] at hread ⊢
    rw [hread]
  rw [step, run_get_bind, run_ite, if_pos hrunning]
  simp only [run_ite]
  by_cases hfd : fd ∈ p.enabled
  · rw [if_pos hfd, if_pos ((h.mem_enabled_iff fd).mp hfd), clientCallback, EStateM.run_bind,
      catching_run_ok hserver]
    rfl
  · rw [if_neg hfd, if_neg fun hmem => hfd ((h.mem_enabled_iff fd).mpr hmem)]
    rfl

/-! ## Any step -/

/-- An accept either keeps the invariant or goes wrong late. -/
theorem accept_cases {failing : Option AcceptStep} (h : p.Inv)
    (hrun : (catching (acceptClient kernel failing)).run p = .ok answer q) :
    (q.Inv ∧ ¬ (ServerInput.accept failing).FailsLate) ∨
      ((ServerInput.accept failing).FailsLate ∧ q = p.opened kernel) := by
  rcases failing with _ | failing
  · rw [catching_run_ok (acceptClient_run_none h)] at hrun
    cases hrun
    exact .inl ⟨inv_accepted h, id⟩
  · by_cases hfirst : failing = .accept
    · subst hfirst
      have herror : (acceptClient kernel (some .accept)).run p
          = .error (.thrown AcceptStep.accept.error) p := rfl
      rw [catching_run_thrown herror] at hrun
      cases hrun
      exact .inl ⟨h, id⟩
    · have hlate := ServerInput.failsLate_of_ne hfirst
      obtain ⟨e, he⟩ := acceptClient_run_late kernel p hlate
      rw [catching_run_thrown he] at hrun
      cases hrun
      exact .inr ⟨hlate, rfl⟩

/-- A step either keeps the invariant or is an accept that goes wrong late. -/
theorem step_cases {x : ServerInput} (h : p.Inv)
    (hrun : (step kernel cbor table x).run p = .ok answer q) :
    (q.Inv ∧ (∀ fd, x = .event fd → answer = .ok ()) ∧ (p.running = true → ¬ x.FailsLate)) ∨
      (p.running = true ∧ x.FailsLate ∧ q = p.opened kernel) := by
  rw [step, run_get_bind, run_ite] at hrun
  by_cases hrunning : p.running = true
  · rw [if_pos hrunning] at hrun
    cases x with
    | accept failing =>
        rcases accept_cases h hrun with ⟨hinv, hwhole⟩ | ⟨hlate, hopened⟩
        · exact .inl ⟨hinv, fun _ hx => (nomatch hx), fun _ => hwhole⟩
        · exact .inr ⟨hrunning, hlate, hopened⟩
    | read fd pending drains =>
        simp only [run_ite] at hrun
        by_cases hfd : fd ∈ p.enabled
        · rw [if_pos hfd] at hrun
          exact .inl ⟨inv_read h hrun, fun _ hx => (nomatch hx), fun _ => id⟩
        · rw [if_neg hfd] at hrun
          cases hrun
          exact .inl ⟨h, fun _ hx => (nomatch hx), fun _ => id⟩
    | event fd =>
        simp only [run_ite] at hrun
        by_cases hfd : fd ∈ p.enabled
        · rw [if_pos hfd, clientCallback_bevEvent_run h hfd] at hrun
          cases hrun
          exact .inl ⟨inv_eraseClient h ((h.mem_enabled_iff fd).mp hfd), fun _ _ => rfl,
            fun _ => id⟩
        · rw [if_neg hfd] at hrun
          cases hrun
          exact .inl ⟨h, fun _ _ => rfl, fun _ => id⟩
  · rw [if_neg hrunning] at hrun
    cases hrun
    exact .inl ⟨h, fun _ _ => rfl, fun hr => absurd hr hrunning⟩

/-- A step keeps the accounts if and only if no accept goes wrong late in it. -/
theorem accounts_iff {x : ServerInput} (h : p.Inv)
    (hrun : (step kernel cbor table x).run p = .ok answer q) :
    Accounts kernel p x answer q ↔ AcceptsWhole p x answer q := by
  have hfresh : kernel.next p.descriptors ∉ p.server.clients := by
    rw [h.registered.mem_clients_iff]
    exact kernel.fresh p.descriptors
  rcases step_cases h hrun with ⟨hinv, hevent, hwhole⟩ | ⟨hrunning, hlate, rfl⟩
  · exact ⟨fun _ => hwhole, fun _ => ⟨hinv.registered, fun _ => hfresh, hevent⟩⟩
  · constructor
    · rintro ⟨hregistered, _⟩
      exact absurd hregistered (not_registered_opened h)
    · intro hwhole
      exact absurd hlate (hwhole hrunning)

theorem inv_step {x : ServerInput} (h : p.Inv)
    (hrun : (step kernel cbor table x).run p = .ok answer q)
    (hwhole : AcceptsWhole p x answer q) : q.Inv := by
  rcases step_cases h hrun with ⟨hinv, _, _⟩ | ⟨hrunning, hlate, _⟩
  · exact hinv
  · exact absurd hlate (hwhole hrunning)

end Steps

end Process

end Rpc
