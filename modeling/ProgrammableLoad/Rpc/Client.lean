/-
# `Rpc.Client` — a client's connection to pinballd

`Rpc::Server` keeps its clients by file descriptor, and a client's callbacks
work on its own entry and, for the indicators, on the LED manager.  A read
watermark keeps libevent from calling back before a header is pending.  The read
callback lets `bevRead` take what is pending, logs an exception that comes out
of it and rethrows it, into libevent and so out of the event loop.

The LED manager is set before the event loop starts and lives as long as it
does.  The item that was loaded is released on every way out, which leaves no
trace in this model.
-/
import ProgrammableLoad.Theory.Table
import ProgrammableLoad.Rpc.Frame
import ProgrammableLoad.Rpc.Indicators

namespace Rpc

open Cpp Cbor Cbor.Util Led Program Table

/-- A client.  `written` are the packets its buffer event took, in order. -/
structure Client where
  receiveBuf : List Byte
  transmitBuf : List Byte
  written : List (List Byte)
  wantsTouchEvents : Bool
  wantsButtonEvents : Bool
  wantsEncoderEvents : Bool

/-- The server with its connected clients, by file descriptor. -/
structure Server where
  clients : AList fun _ : Nat => Client
  ledManager : LedManager

/-- A change of a client's own members. -/
def Server.modifyClient (s : Server) (this : Nat) (f : Client → Client) : Server :=
  match s.clients.lookup this with
  | none => s
  | some client => { s with clients := s.clients.replace this (f client) }

@[simp] theorem ledManager_modifyClient (s : Server) (this : Nat) (f : Client → Client) :
    (s.modifyClient this f).ledManager = s.ledManager := by
  unfold Server.modifyClient
  cases s.clients.lookup this <;> rfl

/-- What works on the LED manager alone, as a part of the server. -/
def onLedManager (m : EStateM Fault LedManager Unit) : EStateM Fault Server Unit := fun s =>
  match m.run s.ledManager with
  | .ok _ led => .ok () { s with ledManager := led }
  | .error e led => .error e { s with ledManager := led }

theorem onLedManager_run (m : EStateM Fault LedManager Unit) (s : Server) :
    (onLedManager m).run s = match m.run s.ledManager with
      | .ok _ led => .ok () { s with ledManager := led }
      | .error e led => .error e { s with ledManager := led } := rfl

/-! ## The endpoints -/

/-- Set one of the flags from a key of the payload.  A value that is a float
leaves it as it was. -/
def updateWants (this : Nat) (item : Item) (key : String) (assign : Bool → Client → Client) :
    EStateM Fault Server Unit := do
  match ← MonadExcept.ofExcept (cborMapGet item key) with
  | none => pure ()
  | some value =>
      if ← MonadExcept.ofExcept value.floatCtrlIsCtrl then
        let wants ← MonadExcept.ofExcept value.getBool
        modify fun s => s.modifyClient this (assign wants)
      else
        pure ()

def updateBroadcastConfig (this : Nat) (item : Item) : EStateM Fault Server Unit := do
  updateWants this item "touch" fun wants client => { client with wantsTouchEvents := wants }
  updateWants this item "button" fun wants client => { client with wantsButtonEvents := wants }
  updateWants this item "encoder" fun wants client => { client with wantsEncoderEvents := wants }

def dispatchPacket (table : IndicatorTable) (this : Nat) (hdr : Header) (payload : Item) :
    EStateM Fault Server Unit :=
  if hdr.endpoint = kRpcEndpointBroadcastConfig then
    updateBroadcastConfig this payload
  else if hdr.endpoint = kRpcEndpointIndicator then
    onLedManager (updateIndicators table payload)
  else if hdr.endpoint = kRpcEndpointNoOp then
    pure ()
  else
    throw (.thrown (.runtimeError s!"unknown rpc endpoint ${hex 2 hdr.endpoint.toNat}"))

theorem dispatchPacket_indicator {table : IndicatorTable} {this : Nat} {hdr : Header}
    {payload : Item} (h : hdr.endpoint = kRpcEndpointIndicator) :
    dispatchPacket table this hdr payload = onLedManager (updateIndicators table payload) := by
  rw [dispatchPacket, h]
  rfl

/-! ## The read callback -/

/-- `Client::bevRead` with some bytes pending, which libevent lets it drain or
does not. -/
def bevRead (cbor : Libcbor) (table : IndicatorTable) (this : Nat) (pending : List Byte)
    (drains : Bool) : EStateM Fault Server Unit := do
  if drains then
    modify fun s => s.modifyClient this fun client => { client with receiveBuf := pending }
    let (hdr, item) ← MonadExcept.ofExcept (Client.receive cbor pending)
    dispatchPacket table this hdr item
  else
    modify fun s => s.modifyClient this fun client =>
      { client with receiveBuf := resize client.receiveBuf pending.length }
    throw (.thrown (.runtimeError "failed to drain client read buffer"))

/-- The read callback: `catch(const std::exception &e) { …; throw; }`. -/
def readCallback (cbor : Libcbor) (table : IndicatorTable) (this : Nat) (pending : List Byte)
    (drains : Bool) : EStateM Fault Server Unit := do
  match ← catching (bevRead cbor table this pending drains) with
  | .ok () => pure ()
  | .error e => throw (.thrown e)

/-- What libevent does about the bytes that are pending. -/
def readEvent (cbor : Libcbor) (table : IndicatorTable) (this : Nat) (pending : List Byte)
    (drains : Bool) : EStateM Fault Server Unit :=
  if pending.length < headerSize then pure ()
  else readCallback cbor table this pending drains

theorem readEvent_of_short (cbor : Libcbor) (table : IndicatorTable) (this : Nat)
    {pending : List Byte} (drains : Bool) (h : pending.length < headerSize) :
    readEvent cbor table this pending drains = pure () := if_pos h

theorem readEvent_of_complete (cbor : Libcbor) (table : IndicatorTable) (this : Nat)
    {pending : List Byte} (drains : Bool) (h : headerSize ≤ pending.length) :
    readEvent cbor table this pending drains = readCallback cbor table this pending drains :=
  if_neg (Nat.not_lt.mpr h)

/-- `bevRead` returns from the endpoint of a message it received. -/
theorem bevRead_run_eq_ok_iff {cbor : Libcbor} {table : IndicatorTable} {this : Nat}
    {pending : List Byte} {s t : Server} :
    (bevRead cbor table this pending true).run s = .ok () t ↔
      ∃ hdr item, Client.receive cbor pending = .ok (hdr, item) ∧
        (dispatchPacket table this hdr item).run
          (s.modifyClient this fun client => { client with receiveBuf := pending })
            = .ok () t := by
  refine (run_ofExcept_bind_eq_ok (x := Client.receive cbor pending)).trans ?_
  constructor
  · rintro ⟨⟨hdr, item⟩, hreceive, hdispatch⟩
    exact ⟨hdr, item, hreceive, hdispatch⟩
  · rintro ⟨hdr, item, hreceive, hdispatch⟩
    exact ⟨(hdr, item), hreceive, hdispatch⟩

theorem onLedManager_run_eq_ok_iff {m : EStateM Fault LedManager Unit} {s t : Server} :
    (onLedManager m).run s = .ok () t ↔
      ∃ led, m.run s.ledManager = .ok () led ∧ t = { s with ledManager := led } := by
  rw [onLedManager_run]
  cases m.run s.ledManager with
  | ok _ led =>
      constructor
      · intro h
        cases h
        exact ⟨led, rfl, rfl⟩
      · rintro ⟨_, hled, rfl⟩
        cases hled
        rfl
  | error e led => exact ⟨fun h => (nomatch h), fun ⟨_, h, _⟩ => (nomatch h)⟩

/-- The callback passes on whatever way `bevRead` ends. -/
theorem readCallback_run (cbor : Libcbor) (table : IndicatorTable) (this : Nat)
    (pending : List Byte) (drains : Bool) (s : Server) :
    (readCallback cbor table this pending drains).run s
      = (bevRead cbor table this pending drains).run s := by
  rw [readCallback, EStateM.run_bind]
  rcases h : (bevRead cbor table this pending drains).run s with ⟨_, t⟩ | ⟨e | op, t⟩
  · rw [catching_run_ok h]
    rfl
  · rw [catching_run_thrown h]
    rfl
  · rw [catching_run_undefined h]

/-! ## Other clients -/

theorem clients_modifyClient (s : Server) (this : Nat) (f : Client → Client) :
    (s.modifyClient this f).clients = adjust s.clients this f := by
  unfold Server.modifyClient adjust
  cases s.clients.lookup this <;> rfl

theorem lookup_modifyClient (s : Server) (this fd : Nat) (f : Client → Client) :
    (s.modifyClient this f).clients.lookup fd
      = (s.clients.lookup fd).map fun client => if fd = this then f client else client := by
  rw [clients_modifyClient, lookup_adjust]

theorem keys_modifyClient (s : Server) (this : Nat) (f : Client → Client) :
    (s.modifyClient this f).clients.keys = s.clients.keys := by
  rw [clients_modifyClient, keys_adjust]

/-- The same clients are registered, and all but `this` are as they were. -/
def OthersUnchanged (this : Nat) (s t : Server) : Prop :=
  t.clients.keys = s.clients.keys ∧
    ∀ other, other ≠ this → t.clients.lookup other = s.clients.lookup other

theorem othersUnchanged_modifyClient {this : Nat} {s t : Server} (f : Client → Client)
    (h : OthersUnchanged this s t) : OthersUnchanged this s (t.modifyClient this f) := by
  refine ⟨(keys_modifyClient t this f).trans h.1, ?_⟩
  intro other hother
  rw [lookup_modifyClient, h.2 other hother]
  simp [hother]

section Keeps

variable {s : Server} {this : Nat}

theorem keeps_onLedManager (m : EStateM Fault LedManager Unit) :
    Keeps (OthersUnchanged this s) (onLedManager m) := by
  intro t ht
  rw [onLedManager_run]
  cases m.run t.ledManager with
  | ok _ led => exact ht
  | error e led => exact ht

theorem keeps_updateWants (item : Item) (key : String) (assign : Bool → Client → Client) :
    Keeps (OthersUnchanged this s) (updateWants this item key assign) := by
  refine Keeps.bind (Keeps.ofExcept _) ?_
  intro found
  cases found with
  | none => exact Keeps.ret _
  | some value =>
      refine Keeps.bind (Keeps.ofExcept _) ?_
      intro isCtrl
      cases isCtrl with
      | false => exact Keeps.ret _
      | true => exact Keeps.bind (Keeps.ofExcept _) fun wants =>
          Keeps.modify fun _ => othersUnchanged_modifyClient _

theorem keeps_dispatchPacket (table : IndicatorTable) (hdr : Header) (payload : Item) :
    Keeps (OthersUnchanged this s) (dispatchPacket table this hdr payload) := by
  unfold dispatchPacket
  split
  · exact Keeps.bind (keeps_updateWants _ _ _) fun _ =>
      Keeps.bind (keeps_updateWants _ _ _) fun _ => keeps_updateWants _ _ _
  · split
    · exact keeps_onLedManager _
    · split
      · exact Keeps.ret _
      · exact Keeps.raise _

theorem keeps_bevRead (cbor : Libcbor) (table : IndicatorTable) (pending : List Byte)
    (drains : Bool) :
    Keeps (OthersUnchanged this s) (bevRead cbor table this pending drains) := by
  cases drains with
  | true =>
      exact Keeps.bind (Keeps.modify fun _ => othersUnchanged_modifyClient _) fun _ =>
        Keeps.bind (Keeps.ofExcept _) fun _ => keeps_dispatchPacket _ _ _
  | false =>
      exact Keeps.bind (Keeps.modify fun _ => othersUnchanged_modifyClient _) fun _ =>
        Keeps.raise _

end Keeps

/-- The callback of one client leaves every other client as it was, whichever
way it ends. -/
theorem keeps_readCallback {s : Server} (this : Nat) (cbor : Libcbor) (table : IndicatorTable)
    (pending : List Byte) (drains : Bool) :
    Keeps (OthersUnchanged this s) (readCallback cbor table this pending drains) := by
  intro t ht
  rw [readCallback_run]
  exact keeps_bevRead cbor table pending drains t ht

theorem keeps_readEvent {s : Server} (this : Nat) (cbor : Libcbor) (table : IndicatorTable)
    (pending : List Byte) (drains : Bool) :
    Keeps (OthersUnchanged this s) (readEvent cbor table this pending drains) := by
  unfold readEvent
  split
  · exact Keeps.ret _
  · exact keeps_readCallback this cbor table pending drains

end Rpc
