/-
# `Rpc.ControlEpHandler` — from the coprocessor's control endpoint to the clients

loadd passes a packet of the coprocessor on to all its clients when the header
says it is a broadcast, and drops it otherwise.  The length field is not
looked at: what is passed on is everything that was pending.
-/
import ProgrammableLoad.Rpc.RpcServer

namespace Rpc

open Cpp Program

/-- The handler; the local RPC server is gone when `lrpc` is `none`. -/
structure ControlEpHandler where
  rpmsgRxBuf : List Byte
  lrpc : Option RpcServer

namespace ControlEpHandler

/-- What is sent to the clients of the bytes received, if anything. -/
def route (buf : List Byte) : Except Exception (Option (List Byte)) :=
  if buf.length < headerSize then
    .error (.runtimeError "insufficient header size")
  else
    let hdr := Header.read buf
    if hdr.version ≠ kRpcVersionLatest then
      .error (.runtimeError s!"unsupported rpc version ${hex 4 hdr.version.toNat}")
    else if hdr.flags &&& kRpcFlagBroadcast ≠ 0 then
      .ok (some buf)
    else
      .ok none

/-- A broadcast of the local RPC server, if it is still there. -/
def flood (accepts : Nat → Bool) (packet : List Byte) : EStateM Fault ControlEpHandler Unit :=
  fun s =>
    match s.lrpc with
    | none => .ok () s
    | some rpc =>
        match (RpcServer.broadcastPacket accepts packet).run rpc with
        | .ok _ rpc' => .ok () { s with lrpc := some rpc' }
        | .error e rpc' => .error e { s with lrpc := some rpc' }

/-- With some bytes pending, which libevent lets it drain or does not. -/
def handleRpmsgRead (accepts : Nat → Bool) (pending : List Byte) (drains : Bool) :
    EStateM Fault ControlEpHandler Unit := do
  if drains then
    modify fun s => { s with rpmsgRxBuf := pending }
    match ← MonadExcept.ofExcept ((route pending).mapError Fault.thrown) with
    | some packet => flood accepts packet
    | none => pure ()
  else
    modify fun s => { s with rpmsgRxBuf := resize s.rpmsgRxBuf pending.length }
    throw (.thrown (.runtimeError "failed to drain confd read buffer"))

/-- The read callback logs an exception and goes on. -/
def readCallback (accepts : Nat → Bool) (pending : List Byte) :
    EStateM Fault ControlEpHandler Unit := do
  let _ ← catching (handleRpmsgRead accepts pending true)

/-- The broadcasts of a list of read callbacks. -/
def broadcasts (reads : List (List Byte)) : List (List Byte) :=
  reads.filterMap fun pending => (route pending).toOption.join

section Callback

variable {accepts : Nat → Bool} {pending : List Byte} {s : ControlEpHandler} {rpc : RpcServer}

/-- What is refused or not for the clients is dropped. -/
theorem readCallback_run_of_dropped (h : ∀ packet, route pending ≠ .ok (some packet)) :
    (readCallback accepts pending).run s = .ok () { s with rpmsgRxBuf := pending } := by
  rw [readCallback, EStateM.run_bind]
  cases hroute : route pending with
  | error e =>
      have hrun : (handleRpmsgRead accepts pending true).run s
          = .error (.thrown e) { s with rpmsgRxBuf := pending } := by
        simp only [handleRpmsgRead, if_true, hroute]
        rfl
      rw [catching_run_thrown hrun]
      rfl
  | ok routed =>
      cases routed with
      | none =>
          have hrun : (handleRpmsgRead accepts pending true).run s
              = .ok () { s with rpmsgRxBuf := pending } := by
            simp only [handleRpmsgRead, if_true, hroute]
            rfl
          rw [catching_run_ok hrun]
          rfl
      | some packet => exact absurd hroute (h packet)

theorem readCallback_run_of_packet {packet : List Byte} {rpc' : RpcServer}
    (hrpc : s.lrpc = some rpc) (hroute : route pending = .ok (some packet))
    (hbroadcast : (RpcServer.broadcastPacket accepts packet).run rpc = .ok () rpc') :
    (readCallback accepts pending).run s = .ok () ⟨pending, some rpc'⟩ := by
  have hflood : (flood accepts packet).run { s with rpmsgRxBuf := pending }
      = .ok () ⟨pending, some rpc'⟩ := by
    simp only [flood, EStateM.run, hrpc] at hbroadcast ⊢
    rw [hbroadcast]
  have hrun : (handleRpmsgRead accepts pending true).run s = .ok () ⟨pending, some rpc'⟩ := by
    simp only [handleRpmsgRead, if_true, hroute]
    exact hflood
  rw [readCallback, EStateM.run_bind, catching_run_ok hrun]
  rfl

end Callback

/-- A callback gives its clients what it takes for the packet. -/
theorem readCallback_run (accepts : Nat → Bool) (pending : List Byte) {s : ControlEpHandler}
    {rpc : RpcServer} (h : s.lrpc = some rpc) :
    ∃ t rpc', (readCallback accepts pending).run s = .ok () t ∧ t.lrpc = some rpc' ∧
      ∀ ev, accepts ev = true → (rpc'.clients.lookup ev).map RpcServer.Client.written
        = (rpc.clients.lookup ev).map fun client => client.written ++ broadcasts [pending] := by
  cases hroute : (route pending).toOption.join with
  | none =>
      refine ⟨_, rpc, readCallback_run_of_dropped ?_, h, ?_⟩
      · intro packet hpacket
        rw [hpacket] at hroute
        cases hroute
      · intro ev _
        simp [broadcasts, hroute]
  | some packet =>
      have hpacket : route pending = .ok (some packet) := by
        rcases hresult : route pending with e | routed
        · rw [hresult] at hroute
          cases hroute
        · rw [hresult] at hroute
          exact congrArg Except.ok hroute
      obtain ⟨rpc', hbroadcast, hlookup⟩ := RpcServer.broadcastPacket_run accepts packet rpc
      refine ⟨_, rpc', readCallback_run_of_packet h hpacket hbroadcast, rfl, ?_⟩
      intro ev hev
      rw [hlookup, Option.map_map]
      congr 1
      funext client
      simp [RpcServer.offered, hev, broadcasts, hroute]

/-- The clients whose buffer events take everything get the broadcasts of all
the callbacks, in order. -/
theorem forM_readCallback_run (accepts : Nat → Bool) (reads : List (List Byte))
    {s : ControlEpHandler} {rpc : RpcServer} (h : s.lrpc = some rpc) :
    ∃ t rpc', (forM reads (readCallback accepts)).run s = .ok () t ∧ t.lrpc = some rpc' ∧
      ∀ ev, accepts ev = true → (rpc'.clients.lookup ev).map RpcServer.Client.written
        = (rpc.clients.lookup ev).map fun client => client.written ++ broadcasts reads := by
  induction reads generalizing s rpc with
  | nil =>
      refine ⟨s, rpc, rfl, h, ?_⟩
      intro ev _
      simp [broadcasts]
  | cons pending reads ih =>
      obtain ⟨u, rpcU, hu, hlrpc, hfirst⟩ := readCallback_run accepts pending h
      obtain ⟨t, rpc', ht, hlrpc', hrest⟩ := ih hlrpc
      refine ⟨t, rpc', ?_, hlrpc', ?_⟩
      · rw [List.forM_cons, run_bind_eq_ok]
        exact ⟨(), u, hu, ht⟩
      · intro ev hev
        have hsplit : broadcasts (pending :: reads) = broadcasts [pending] ++ broadcasts reads := by
          rw [broadcasts, ← List.singleton_append, List.filterMap_append]
          rfl
        rw [hsplit]
        calc (rpc'.clients.lookup ev).map RpcServer.Client.written
            = ((rpcU.clients.lookup ev).map RpcServer.Client.written).map
                (· ++ broadcasts reads) := by rw [hrest ev hev, Option.map_map]; rfl
          _ = (rpc.clients.lookup ev).map fun client =>
                client.written ++ broadcasts [pending] ++ broadcasts reads := by
              rw [hfirst ev hev, Option.map_map]; rfl
          _ = _ := by simp only [List.append_assoc]

end ControlEpHandler

end Rpc
