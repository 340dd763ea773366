/-
# `Rpc.Subscriptions` — which broadcasts of pinballd reach a client

A client of pinballd is connected, sets any of its three subscriptions with a
broadcast configuration message, gets broadcasts, and disconnects.  The
history of the server is the list of these events.  What a client was sent is
read off the history since it was connected: each broadcast of a type that it
had most recently set to true.
-/
import ProgrammableLoad.Rpc.Agreement
import ProgrammableLoad.Rpc.Process
import ProgrammableLoad.Theory.LastWriter

namespace Rpc

open Cpp Cbor Cbor.Util Led Program Handles Table LastWriter

/-! ## Messages -/

/-- The key of a type of broadcasts in the configuration message. -/
def BroadcastType.key : BroadcastType → String
  | .touchEvent => "touch"
  | .buttonEvent => "button"
  | .encoderEvent => "encoder"

/-- A map from texts to truth values, with the message that carries it. -/
structure BroadcastConfig (cbor : Libcbor) where
  definite : Bool
  pairs : List (List Byte × Bool)
  tag : Byte
  bytes : List Byte
  encodes : cbor.Encodes bytes
    (.map definite (pairs.map fun pair => (.text pair.1, Item.ofBool pair.2)))
  fits : bytes.length ≤ maxPayload

namespace BroadcastConfig

variable {cbor : Libcbor} (config : BroadcastConfig cbor)

def item : Item :=
  .map config.definite (config.pairs.map fun pair => (.text pair.1, Item.ofBool pair.2))

/-- The message as the client sends it. -/
def message : List Byte := packet kRpcEndpointBroadcastConfig config.tag config.bytes

/-- The value the message has for a type, if any. -/
def setting (type : BroadcastType) : Option Bool := firstOf (ascii type.key) config.pairs

end BroadcastConfig

/-- A broadcast of a driver. -/
structure Broadcast where
  type : BroadcastType
  endpoint : Byte
  payload : List Byte
  fits : payload.length ≤ maxPayload

/-- The packet of a broadcast. -/
def Broadcast.bytes (b : Broadcast) : List Byte := packet b.endpoint 0 b.payload

/-- The header has the true length and the endpoint, and the payload follows
it unmodified. -/
structure Broadcast.Framed (b : Broadcast) (bytes : List Byte) : Prop where
  version : (Header.read bytes).version = kRpcVersionLatest
  length : (Header.read bytes).length.toNat = bytes.length
  endpoint : (Header.read bytes).endpoint = b.endpoint
  payload : bytes.drop headerSize = b.payload

theorem Broadcast.framed_bytes (b : Broadcast) : b.Framed b.bytes where
  version := version_packet _ _ _
  length := by
    have hfits := b.fits
    rw [Broadcast.bytes, toNat_length_packet, length_packet]
    unfold maxPayload at hfits
    exact Nat.mod_eq_of_lt (by unfold headerSize; omega)
  endpoint := endpoint_packet _ _ _
  payload := drop_packet _ _ _

/-! ## Histories -/

/-- What happened, with the descriptors of the clients concerned. -/
inductive Happening (cbor : Libcbor) where
  | connected (fd : Nat)
  | disconnected (fd : Nat)
  | configured (fd : Nat) (config : BroadcastConfig cbor)
  | broadcast (b : Broadcast)

section History

variable {cbor : Libcbor}

/-- What a connected client saw. -/
inductive Seen (cbor : Libcbor) where
  | configured (config : BroadcastConfig cbor)
  | broadcast (b : Broadcast)

/-- What the client with a descriptor saw since it was connected, if it is.
The latest is first, here and below. -/
def session (fd : Nat) : List (Happening cbor) → Option (List (Seen cbor))
  | [] => none
  | .connected fd' :: past => if fd' = fd then some [] else session fd past
  | .disconnected fd' :: past => if fd' = fd then none else session fd past
  | .configured fd' config :: past =>
      if fd' = fd then (session fd past).map (Seen.configured config :: ·) else session fd past
  | .broadcast b :: past => (session fd past).map (Seen.broadcast b :: ·)

/-- What the client had most recently set a type to. -/
def wanted (type : BroadcastType) : List (Seen cbor) → Bool
  | [] => false
  | .configured config :: past => (config.setting type).getD (wanted type past)
  | .broadcast _ :: past => wanted type past

/-- The broadcasts for the client, in the order they were issued. -/
def delivered : List (Seen cbor) → List Broadcast
  | [] => []
  | .configured _ :: past => delivered past
  | .broadcast b :: past => if wanted b.type past then delivered past ++ [b] else delivered past

end History

/-! ## The server -/

/-- What the server meets. -/
inductive SubscriptionInput (cbor : Libcbor) where
  | connect
  | disconnect (fd : Nat)
  | configure (fd : Nat) (config : BroadcastConfig cbor)
  | broadcast (b : Broadcast)

/-- One turn of pinballd's event loop with sockets that take every write; the
answer is what happened. -/
def subscriptionStep (kernel : Allocator Nat) (cbor : Libcbor) (table : IndicatorTable) :
    SubscriptionInput cbor → EStateM Fault Process (Happening cbor)
  | .connect => do
      let fd := kernel.next (← get).descriptors
      let _ ← Process.step kernel cbor table (.accept none)
      return .connected fd
  | .disconnect fd => do
      let _ ← Process.step kernel cbor table (.event fd)
      return .disconnected fd
  | .configure fd config => do
      let _ ← Process.step kernel cbor table (.read fd config.message true)
      return .configured fd config
  | .broadcast b => do
      Process.onServer (broadcastRaw (fun _ => true) b.type b.endpoint b.payload)
      return .broadcast b

/-! ## A configuration message at the server -/

section Configure

variable {cbor : Libcbor} (config : BroadcastConfig cbor) {table : IndicatorTable} {this : Nat}

theorem cborMapGet_item (type : BroadcastType) :
    cborMapGet config.item type.key = .ok ((config.setting type).map Item.ofBool) := by
  show findKey type.key (config.pairs.map _) = _
  unfold BroadcastConfig.setting
  induction config.pairs with
  | nil => rfl
  | cons pair pairs ih =>
      rw [List.map_cons, findKey, firstOf_cons]
      show (if pair.1 = ascii type.key then _ else _) = _
      by_cases h : pair.1 = ascii type.key
      · rw [if_pos h, if_pos h]
        rfl
      · rw [if_neg h, if_neg h]
        exact ih

/-- A client's member set to a value, or left if there is none. -/
def Server.assignWants (s : Server) (this : Nat) (value : Option Bool)
    (assign : Bool → Client → Client) : Server :=
  match value with
  | none => s
  | some wants => s.modifyClient this (assign wants)

theorem keys_assignWants (s : Server) (value : Option Bool) (assign : Bool → Client → Client) :
    (s.assignWants this value assign).clients.keys = s.clients.keys := by
  cases value with
  | none => rfl
  | some wants => exact keys_modifyClient s this _

theorem lookup_assignWants (s : Server) (value : Option Bool)
    (assign : Bool → Client → Client) (fd : Nat) :
    (s.assignWants this value assign).clients.lookup fd
      = (s.clients.lookup fd).map fun client =>
        if fd = this then (value.map fun wants => assign wants client).getD client
        else client := by
  cases value with
  | none =>
      show s.clients.lookup fd = _
      simp
  | some wants => exact lookup_modifyClient s this fd _

/-- A key of the message sets its member, an absent one leaves it. -/
theorem updateWants_item_run (type : BroadcastType) (assign : Bool → Client → Client)
    (s : Server) :
    (updateWants this config.item type.key assign).run s
      = .ok () (s.assignWants this (config.setting type) assign) := by
  rw [updateWants, cborMapGet_item]
  cases config.setting type with
  | none => rfl
  | some wants => cases wants <;> rfl

/-- A client after its configuration message. -/
def Client.configured (client : Client) : Client :=
  { client with
    receiveBuf := config.message
    wantsTouchEvents := (config.setting .touchEvent).getD client.wantsTouchEvents
    wantsButtonEvents := (config.setting .buttonEvent).getD client.wantsButtonEvents
    wantsEncoderEvents := (config.setting .encoderEvent).getD client.wantsEncoderEvents }

theorem receive_message : Client.receive cbor config.message
    = .ok (Header.read config.message, config.item) := by
  refine receive_packet_iff.mpr ⟨(claims_all_iff.mpr config.fits).1, rfl, ?_⟩
  exact config.encodes.load_take_iff.mpr ⟨(claims_all_iff.mpr config.fits).2, rfl⟩

/-- The server after the message of one client. -/
def Server.configured (s : Server) (this : Nat) : Server :=
  let s := s.modifyClient this fun client => { client with receiveBuf := config.message }
  let s := s.assignWants this (config.setting .touchEvent) fun wants client =>
    { client with wantsTouchEvents := wants }
  let s := s.assignWants this (config.setting .buttonEvent) fun wants client =>
    { client with wantsButtonEvents := wants }
  s.assignWants this (config.setting .encoderEvent) fun wants client =>
    { client with wantsEncoderEvents := wants }

theorem keys_configured (s : Server) :
    (s.configured config this).clients.keys = s.clients.keys := by
  rw [Server.configured, keys_assignWants, keys_assignWants, keys_assignWants, keys_modifyClient]

theorem lookup_configured (s : Server) (fd : Nat) :
    (s.configured config this).clients.lookup fd = (s.clients.lookup fd).map fun client =>
      if fd = this then client.configured config else client := by
  rw [Server.configured, lookup_assignWants, lookup_assignWants, lookup_assignWants,
    lookup_modifyClient]
  simp only [Option.map_map]
  congr 1
  funext client
  by_cases hfd : fd = this
  · simp only [Function.comp_apply, hfd, if_true, Client.configured]
    cases config.setting .touchEvent <;> cases config.setting .buttonEvent <;>
      cases config.setting .encoderEvent <;> rfl
  · simp [hfd]

theorem readEvent_message (s : Server) :
    (readEvent cbor table this config.message true).run s
      = .ok () (s.configured config this) := by
  have hendpoint : (Header.read config.message).endpoint = kRpcEndpointBroadcastConfig :=
    endpoint_packet _ _ _
  have hdispatch : dispatchPacket table this (Header.read config.message) config.item
      = updateBroadcastConfig this config.item := by
    rw [dispatchPacket, if_pos hendpoint]
  rw [readEvent_of_complete _ _ _ _ (receive_eq_ok_iff.mp (receive_message config)).1.complete,
    readCallback_run, bevRead_run_eq_ok_iff]
  refine ⟨_, _, receive_message config, ?_⟩
  rw [hdispatch]
  exact run_bind_eq_ok.mpr ⟨(), _, updateWants_item_run config .touchEvent _ _,
    run_bind_eq_ok.mpr ⟨(), _, updateWants_item_run config .buttonEvent _ _,
      updateWants_item_run config .encoderEvent _ _⟩⟩

end Configure

/-! ## Runs -/

section Runs

variable {kernel : Allocator Nat} {cbor : Libcbor} {table : IndicatorTable} {p q : Process}
  {past : List (Happening cbor)}

/-- What a client was sent and what it wants. -/
def Client.view (client : Client) : List (List Byte) × (BroadcastType → Bool) :=
  (client.written, client.wantsBroadcastOfType)

/-- The same from what it saw. -/
def viewOf (seen : List (Seen cbor)) : List (List Byte) × (BroadcastType → Bool) :=
  ((delivered seen).map Broadcast.bytes, fun type => wanted type seen)

/-- The event loop runs, and the clients are as the history has them. -/
structure Subscribed (p : Process) (past : List (Happening cbor)) : Prop where
  inv : p.Inv
  running : p.running = true
  view_eq : ∀ fd, (p.server.clients.lookup fd).map Client.view = (session fd past).map viewOf

theorem subscribed_start (ledManager : LedManager) :
    Subscribed (Process.start ledManager) ([] : List (Happening cbor)) where
  inv := Process.inv_start ledManager
  running := rfl
  view_eq _ := rfl

theorem view_configured (config : BroadcastConfig cbor) {client : Client}
    {seen : List (Seen cbor)} (h : client.view = viewOf seen) :
    (client.configured config).view = viewOf (.configured config :: seen) := by
  obtain ⟨hwritten, hwants⟩ := Prod.ext_iff.mp h
  refine Prod.ext hwritten ?_
  funext type
  have htype := congrFun hwants type
  cases type with
  | touchEvent => exact congrArg (Option.getD (config.setting .touchEvent)) htype
  | buttonEvent => exact congrArg (Option.getD (config.setting .buttonEvent)) htype
  | encoderEvent => exact congrArg (Option.getD (config.setting .encoderEvent)) htype

theorem view_offered (b : Broadcast) {client : Client} {seen : List (Seen cbor)}
    (h : client.view = viewOf seen) :
    (client.offered b.type b.bytes).view = viewOf (.broadcast b :: seen) := by
  obtain ⟨hwritten, hwants⟩ := Prod.ext_iff.mp h
  have htype : client.wantsBroadcastOfType b.type = wanted b.type seen := congrFun hwants b.type
  rw [Client.offered, htype, viewOf, delivered]
  split
  · refine Prod.ext ?_ ?_
    · show client.written ++ [b.bytes] = _
      rw [List.map_append, show client.written = _ from hwritten]
      rfl
    · funext type
      have hother := congrFun hwants type
      cases type <;> exact hother
  · exact Prod.ext hwritten hwants

/-- A client and its session that change alike still agree. -/
theorem map_view_eq {client? : Option Client} {seen? : Option (List (Seen cbor))}
    {f : Client → Client} {g : List (Seen cbor) → List (Seen cbor)}
    (h : client?.map Client.view = seen?.map viewOf)
    (hfg : ∀ client seen, client.view = viewOf seen → (f client).view = viewOf (g seen)) :
    (client?.map f).map Client.view = (seen?.map g).map viewOf := by
  cases client? with
  | none =>
      cases seen? with
      | none => rfl
      | some seen => cases h
  | some client =>
      cases seen? with
      | none => cases h
      | some seen => exact congrArg some (hfg client seen (Option.some.inj h))

/-! One lemma for each kind of input. -/

theorem subscribed_connect (h : Subscribed p past) :
    ∃ w q, (subscriptionStep kernel cbor table .connect).run p = .ok w q ∧
      Subscribed q (w :: past) := by
  refine ⟨.connected (kernel.next p.descriptors), p.accepted kernel, ?_,
    Process.inv_accepted h.inv, h.running, fun fd => ?_⟩
  · exact run_bind_eq_ok.mpr ⟨p, p, rfl,
      run_bind_eq_ok.mpr ⟨_, _, Process.step_accept_run h.inv h.running, rfl⟩⟩
  · show ((p.server.clients.insert (kernel.next p.descriptors) Client.fresh).lookup fd).map
      Client.view = _
    by_cases hfd : kernel.next p.descriptors = fd
    · rw [hfd, AList.lookup_insert, session, if_pos rfl]
      refine congrArg some (Prod.ext rfl ?_)
      funext type
      cases type <;> rfl
    · rw [AList.lookup_insert_ne (Ne.symm hfd), session, if_neg hfd]
      exact h.view_eq fd

theorem subscribed_disconnect (fd : Nat) (h : Subscribed p past) :
    ∃ w q, (subscriptionStep kernel cbor table (.disconnect fd)).run p = .ok w q ∧
      Subscribed q (w :: past) := by
  refine ⟨.disconnected fd, _,
    run_bind_eq_ok.mpr ⟨_, _, Process.step_event_run h.inv h.running, rfl⟩, ?_⟩
  by_cases hfd : fd ∈ p.server.clients
  · rw [if_pos hfd]
    refine ⟨Process.inv_eraseClient h.inv hfd, h.running, ?_⟩
    intro other
    show ((p.server.clients.erase fd).lookup other).map Client.view = _
    by_cases hother : fd = other
    · rw [hother, AList.lookup_erase, session, if_pos rfl]
      rfl
    · rw [AList.lookup_erase_ne (Ne.symm hother), session, if_neg hother]
      exact h.view_eq other
  · rw [if_neg hfd]
    refine ⟨h.inv, h.running, ?_⟩
    intro other
    by_cases hother : fd = other
    · rw [← hother, AList.lookup_eq_none.mpr hfd, session, if_pos rfl]
      rfl
    · rw [session, if_neg hother]
      exact h.view_eq other

theorem subscribed_configure (fd : Nat) (config : BroadcastConfig cbor)
    (h : Subscribed p past) :
    ∃ w q, (subscriptionStep kernel cbor table (.configure fd config)).run p = .ok w q ∧
      Subscribed q (w :: past) := by
  refine ⟨.configured fd config, _, run_bind_eq_ok.mpr ⟨_, _, Process.step_read_run h.inv
    h.running (readEvent_message config p.server), rfl⟩, ?_⟩
  by_cases hfd : fd ∈ p.server.clients
  · rw [if_pos hfd]
    refine ⟨Process.inv_of_mem_iff (p := p) h.inv
      (Process.mem_iff_of_keys (keys_configured config p.server)), h.running, fun other => ?_⟩
    show ((p.server.configured config fd).clients.lookup other).map Client.view = _
    rw [lookup_configured]
    by_cases hother : other = fd
    · rw [session, if_pos hother.symm, hother]
      refine map_view_eq (h.view_eq fd) ?_
      intro client seen hview
      rw [if_pos rfl]
      exact view_configured config hview
    · rw [session, if_neg (Ne.symm hother), ← h.view_eq other]
      simp only [Option.map_map, Function.comp_def, hother, if_false]
  · rw [if_neg hfd]
    refine ⟨h.inv, h.running, ?_⟩
    intro other
    have hview := h.view_eq other
    by_cases hother : fd = other
    · rw [← hother, AList.lookup_eq_none.mpr hfd] at hview ⊢
      rw [session, if_pos rfl, Option.map_map]
      cases hsession : session fd past with
      | none => rfl
      | some seen => rw [hsession] at hview; cases hview
    · rw [session, if_neg hother]
      exact hview

theorem subscribed_broadcast (b : Broadcast) (h : Subscribed p past) :
    ∃ w q, (subscriptionStep kernel cbor table (.broadcast b)).run p = .ok w q ∧
      Subscribed q (w :: past) := by
  have haccepts : ∀ fd : Nat, (fun _ => true) fd = true := fun _ => rfl
  obtain ⟨server, hserver⟩ := broadcastPacket_returns haccepts b.type b.bytes p.server
  have hlookup := broadcastPacket_run_eq_ok hserver
  have hrun : (Process.onServer (broadcastRaw (fun _ => true) b.type b.endpoint b.payload)).run p
      = .ok () { p with server := server } := by
    simp only [Process.onServer, broadcastRaw, EStateM.run] at hserver ⊢
    rw [show packet b.endpoint 0 b.payload = b.bytes from rfl, hserver]
  refine ⟨.broadcast b, _, run_bind_eq_ok.mpr ⟨_, _, hrun, rfl⟩, ?_, h.running, ?_⟩
  · refine Process.inv_of_mem_iff (p := p) h.inv ?_
    intro fd
    rw [← AList.lookup_isSome, ← AList.lookup_isSome, hlookup, Option.isSome_map]
  · intro fd
    show (server.clients.lookup fd).map Client.view = _
    rw [hlookup, session]
    exact map_view_eq (h.view_eq fd) fun client seen hview => view_offered b hview

variable (kernel table) in
theorem subscribed_step (x : SubscriptionInput cbor) (h : Subscribed p past) :
    ∃ w q, (subscriptionStep kernel cbor table x).run p = .ok w q ∧ Subscribed q (w :: past) := by
  cases x with
  | connect => exact subscribed_connect h
  | disconnect fd => exact subscribed_disconnect fd h
  | configure fd config => exact subscribed_configure fd config h
  | broadcast b => exact subscribed_broadcast b h

variable (kernel table) in
theorem subscribed_run (xs : List (SubscriptionInput cbor)) (h : Subscribed p past) :
    ∃ ws q, Steps (subscriptionStep kernel cbor table) p xs ws q ∧
      Subscribed q (ws.reverse ++ past) := by
  induction xs generalizing p past with
  | nil => exact ⟨[], p, .nil p, h⟩
  | cons x xs ih =>
      obtain ⟨w, u, hx, hu⟩ := subscribed_step kernel table x h
      obtain ⟨ws, q, hxs, hq⟩ := ih hu
      refine ⟨w :: ws, q, .cons hx hxs, ?_⟩
      rw [List.reverse_cons, List.append_assoc]
      exact hq

end Runs

/-- From a server without clients every list of inputs is handled, and each
client was then sent exactly the broadcasts its session has for it, each as a
whole packet. -/
theorem subscriptions_delivered (kernel : Allocator Nat) (cbor : Libcbor) (table : IndicatorTable)
    (ledManager : LedManager) (xs : List (SubscriptionInput cbor)) :
    ∃ ws p, Steps (subscriptionStep kernel cbor table) (Process.start ledManager) xs ws p ∧
      ∀ fd, (p.server.clients.lookup fd).map Client.written
          = (session fd ws.reverse).map (fun seen => (delivered seen).map Broadcast.bytes) ∧
        ∀ seen, session fd ws.reverse = some seen → ∀ b ∈ delivered seen, b.Framed b.bytes := by
  obtain ⟨ws, p, hrun, h⟩ := subscribed_run kernel table xs
    (subscribed_start ledManager)
  refine ⟨ws, p, hrun, fun fd => ⟨?_, fun _ _ b _ => b.framed_bytes⟩⟩
  have hview := congrArg (Option.map Prod.fst) (h.view_eq fd)
  rw [List.append_nil, Option.map_map, Option.map_map] at hview
  exact hview

end Rpc
