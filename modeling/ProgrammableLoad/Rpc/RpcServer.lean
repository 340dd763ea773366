/-
# `Rpc.RpcServer` — the server of loadd

loadd keeps its clients by the address of their buffer event.  A client owns
the socket and the buffer event; its destructor frees the one and closes the
other.  The read and event callbacks catch every exception, log it and erase
the client.  No endpoint is implemented, so every message is an error.

`descriptors` and `events` record what was opened and closed, and `enabled`
are the buffer events whose callbacks libevent may call.
-/
import ProgrammableLoad.Theory.Handles
import ProgrammableLoad.Theory.Table
import ProgrammableLoad.Rpc.Frame

namespace Rpc

open Cpp Cbor Program Handles Table

/-- The steps of accepting a client that may fail, in order. -/
inductive AcceptStep where
  | accept | makeNonblocking | createEvent | enableEvent
deriving DecidableEq

/-- The error of a step that failed. -/
def AcceptStep.error : AcceptStep → Exception
  | .accept => .systemError "accept"
  | .makeNonblocking => .systemError "evutil_make_socket_nonblocking"
  | .createEvent => .runtimeError "failed to create bufferevent"
  | .enableEvent => .runtimeError "failed to enable bufferevent"

/-- `RpcServer::Client`; `written` are the packets its buffer event took, in
order. -/
structure RpcServer.Client where
  socket : Nat
  receiveBuf : List Byte
  written : List (List Byte)

structure RpcServer where
  clients : Entries Nat RpcServer.Client
  descriptors : List (Use Nat)
  events : List (Use Nat)
  enabled : Finset Nat

namespace RpcServer

/-- A change of a client's own members. -/
def modifyClient (s : RpcServer) (ev : Nat) (f : Client → Client) : RpcServer :=
  { s with clients := adjust s.clients ev f }

/-- `~Client` -/
def destroyClient (s : RpcServer) (ev socket : Nat) : RpcServer :=
  { s with
    events := s.events ++ [.closes ev]
    enabled := s.enabled.erase ev
    descriptors := s.descriptors ++ [.closes socket] }

/-- `clients.emplace(ev, cl)`: a client whose key is taken is destroyed. -/
def emplaceClient (s : RpcServer) (ev : Nat) (client : Client) : RpcServer :=
  if ev ∈ s.clients then
    s.destroyClient ev client.socket
  else
    { s with clients := s.clients.insert ev client }

/-- `clients.erase(ev)` -/
def eraseClient (s : RpcServer) (ev : Nat) : RpcServer :=
  match s.clients.lookup ev with
  | none => s
  | some client => { s with clients := s.clients.erase ev }.destroyClient ev client.socket

/-! ## Accepting a client -/

/-- The constructor of `Client`, up to the insertion into the map; the address
of the buffer event. -/
def constructClient (heap : Allocator Nat) (failing : Option AcceptStep) :
    EStateM Fault RpcServer Nat := do
  if failing = some .createEvent then
    throw (.thrown AcceptStep.createEvent.error)
  else do
    let ev := heap.next (← get).events
    modify fun s => { s with events := s.events ++ [.opens ev] }
    if failing = some .enableEvent then
      throw (.thrown AcceptStep.enableEvent.error)
    else do
      modify fun s => { s with enabled := insert ev s.enabled }
      return ev

/-- `failing` is the first step that fails, if any. -/
def acceptClient (kernel heap : Allocator Nat) (failing : Option AcceptStep) :
    EStateM Fault RpcServer Unit := do
  if failing = some .accept then
    throw (.thrown AcceptStep.accept.error)
  else do
    let fd := kernel.next (← get).descriptors
    modify fun s => { s with descriptors := s.descriptors ++ [.opens fd] }
    if failing = some .makeNonblocking then
      throw (.thrown AcceptStep.makeNonblocking.error)
    else do
      let ev ← constructClient heap failing
      modify fun s => s.emplaceClient ev ⟨fd, [], []⟩

/-! ## The callbacks of a client -/

/-- With some bytes pending, which libevent lets it drain or does not. -/
def handleClientRead (cbor : Libcbor) (ev : Nat) (pending : List Byte) (drains : Bool) :
    EStateM Fault RpcServer Unit := do
  match (← get).clients.lookup ev with
  | none => throw (.thrown (.outOfRange "unordered_map::at"))
  | some _ =>
      if drains then
        modify fun s => s.modifyClient ev fun client => { client with receiveBuf := pending }
        match RpcServer.frame pending with
        | .error e => throw (.thrown e)
        | .ok region =>
            let _ ← MonadExcept.ofExcept
              (loadRegion cbor (fun n => s!"${hex 1 n}") pending region)
            throw (.thrown (.runtimeError
              s!"unknown rpc endpoint ${hex 2 (Header.read pending).endpoint.toNat}"))
      else
        modify fun s => s.modifyClient ev fun client =>
          { client with receiveBuf := resize client.receiveBuf pending.length }
        throw (.thrown (.runtimeError "failed to drain client read buffer"))

/-- A closed connection and an error are treated alike. -/
def handleClientEvent (ev : Nat) : EStateM Fault RpcServer Unit := do
  match (← get).clients.lookup ev with
  | none => throw (.thrown (.outOfRange "unordered_map::at"))
  | some _ => modify fun s => s.eraseClient ev

def abortClient (ev : Nat) : EStateM Fault RpcServer Unit :=
  modify fun s => s.eraseClient ev

/-- A callback of a client: an exception is logged and the client aborted.
The answer is what is logged. -/
def clientCallback (ev : Nat) (m : EStateM Fault RpcServer Unit) :
    EStateM Fault RpcServer (Except Exception Unit) := do
  match ← catching m with
  | .ok () => return .ok ()
  | .error e =>
      abortClient ev
      return .error e

/-! ## Broadcasts -/

/-- `bufferevent_write` in a broadcast; `accepts` says of each buffer event
whether it takes the packet, and that one does not is only logged. -/
def writePacket (accepts : Nat → Bool) (packet : List Byte) (ev : Nat) :
    EStateM Fault RpcServer Unit :=
  if accepts ev then
    modify fun s => s.modifyClient ev fun client =>
      { client with written := client.written ++ [packet] }
  else
    pure ()

def broadcastPacket (accepts : Nat → Bool) (packet : List Byte) :
    EStateM Fault RpcServer Unit := do
  forM (← get).clients.keys (writePacket accepts packet)

/-- A client after it was offered a packet. -/
def offered (accepts : Nat → Bool) (packet : List Byte) (ev : Nat) (client : Client) : Client :=
  if accepts ev then { client with written := client.written ++ [packet] } else client

theorem forM_writePacket_run (accepts : Nat → Bool) (packet : List Byte) (evs : List Nat)
    (s : RpcServer) :
    (forM evs (writePacket accepts packet)).run s
      = .ok () { s with
          clients := adjustAll s.clients (evs.filter accepts) (offered accepts packet) } := by
  induction evs generalizing s with
  | nil => rfl
  | cons ev evs ih =>
      rw [List.forM_cons, EStateM.run_bind, writePacket, run_ite]
      cases h : accepts ev with
      | false =>
          rw [if_neg Bool.false_ne_true,
            List.filter_cons_of_neg (by rw [h]; exact Bool.false_ne_true)]
          exact ih s
      | true =>
          rw [if_pos rfl, List.filter_cons_of_pos h, adjustAll_cons]
          have hoffered : offered accepts packet ev
              = fun client => { client with written := client.written ++ [packet] } := by
            funext client
            rw [offered, if_pos h]
          rw [hoffered]
          exact ih (s.modifyClient ev _)

/-- A broadcast returns, and every client has been offered the packet once. -/
theorem broadcastPacket_run (accepts : Nat → Bool) (packet : List Byte) (s : RpcServer) :
    ∃ t, (broadcastPacket accepts packet).run s = .ok () t ∧
      ∀ ev, t.clients.lookup ev = (s.clients.lookup ev).map (offered accepts packet ev) := by
  refine ⟨_, forM_writePacket_run accepts packet s.clients.keys s, ?_⟩
  intro ev
  rw [lookup_adjustAll _ (s.clients.keys_nodup.filter _)]
  cases hlookup : s.clients.lookup ev with
  | none => rfl
  | some client =>
      have hmem : ev ∈ s.clients.keys :=
        AList.mem_keys.mp (AList.lookup_isSome.mp (by rw [hlookup]; rfl))
      cases h : accepts ev with
      | false => simp [offered, h]
      | true => simp [hmem, h]

end RpcServer

end Rpc
