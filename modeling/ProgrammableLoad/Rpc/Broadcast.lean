/-
# `Rpc.Broadcast` — broadcasts of pinballd

`Server::broadcastRaw` builds a packet with no tag and offers it to every
client in the order of the client map; a client takes it if it wants events of
that type.  A write that fails throws and ends the loop.
-/
import ProgrammableLoad.Rpc.Client

namespace Rpc

open Cpp Program

inductive BroadcastType where
  | touchEvent | buttonEvent | encoderEvent
deriving DecidableEq

def Client.wantsBroadcastOfType (client : Client) : BroadcastType → Bool
  | .touchEvent => client.wantsTouchEvents
  | .buttonEvent => client.wantsButtonEvents
  | .encoderEvent => client.wantsEncoderEvents

/-- `Client::send`; `accepts` says of each client whether its buffer event
takes the packet. -/
def send (accepts : Nat → Bool) (this : Nat) (buf : List Byte) : EStateM Fault Server Unit :=
  if accepts this then
    modify fun s => s.modifyClient this fun client =>
      { client with written := client.written ++ [buf] }
  else
    throw (.thrown (.systemError "write rpc reply"))

def maybeBroadcast (accepts : Nat → Bool) (type : BroadcastType) (packet : List Byte)
    (this : Nat) : EStateM Fault Server Unit := do
  match (← get).clients.lookup this with
  | none => pure ()
  | some client =>
      if client.wantsBroadcastOfType type then send accepts this packet else pure ()

def broadcastPacket (accepts : Nat → Bool) (type : BroadcastType) (packet : List Byte) :
    EStateM Fault Server Unit := do
  forM (← get).clients.keys (maybeBroadcast accepts type packet)

def broadcastRaw (accepts : Nat → Bool) (type : BroadcastType) (endpoint : Byte)
    (payload : List Byte) : EStateM Fault Server Unit :=
  broadcastPacket accepts type (packet endpoint 0 payload)

/-! ## What a broadcast writes -/

/-- A client after it was offered a packet. -/
def Client.offered (client : Client) (type : BroadcastType) (packet : List Byte) : Client :=
  if client.wantsBroadcastOfType type then
    { client with written := client.written ++ [packet] }
  else
    client

theorem maybeBroadcast_run_eq_ok {accepts : Nat → Bool} {type : BroadcastType}
    {packet : List Byte} {this : Nat} {s t : Server}
    (h : (maybeBroadcast accepts type packet this).run s = .ok () t) (fd : Nat) :
    t.clients.lookup fd = (s.clients.lookup fd).map fun client =>
      if fd = this then client.offered type packet else client := by
  rw [maybeBroadcast, run_get_bind] at h
  cases hthis : s.clients.lookup this with
  | none =>
      rw [hthis] at h
      cases h
      by_cases hfd : fd = this
      · rw [hfd, hthis]
        rfl
      · simp [hfd]
  | some client =>
      rw [hthis] at h
      simp only [run_ite] at h
      cases hwants : client.wantsBroadcastOfType type with
      | false =>
          rw [hwants] at h
          cases h
          by_cases hfd : fd = this
          · rw [hfd, hthis]
            simp [Client.offered, hwants]
          · simp [hfd]
      | true =>
          rw [hwants, if_pos rfl, send, run_ite] at h
          split at h
          · cases h
            show (s.modifyClient _ _).clients.lookup fd = _
            rw [lookup_modifyClient]
            by_cases hfd : fd = this
            · rw [hfd, hthis]
              simp [Client.offered, hwants]
            · simp [hfd]
          · cases h

/-- A loop over clients offers the packet once to each of them. -/
theorem forM_maybeBroadcast_run_eq_ok {accepts : Nat → Bool} {type : BroadcastType}
    {packet : List Byte} {fds : List Nat} (hnodup : fds.Nodup) {s t : Server}
    (h : (forM fds (maybeBroadcast accepts type packet)).run s = .ok () t) (fd : Nat) :
    t.clients.lookup fd = (s.clients.lookup fd).map fun client =>
      if fd ∈ fds then client.offered type packet else client := by
  induction fds generalizing s with
  | nil =>
      cases h
      simp
  | cons this fds ih =>
      rw [List.forM_cons] at h
      obtain ⟨_, u, hthis, hrest⟩ := run_bind_eq_ok.mp h
      obtain ⟨hnot, hnodup⟩ := List.nodup_cons.mp hnodup
      rw [ih hnodup hrest, maybeBroadcast_run_eq_ok hthis, Option.map_map]
      congr 1
      funext client
      by_cases hfd : fd = this
      · subst hfd
        simp [hnot]
      · simp [hfd]

/-- A broadcast that returns was offered once to every client. -/
theorem broadcastPacket_run_eq_ok {accepts : Nat → Bool} {type : BroadcastType}
    {packet : List Byte} {s t : Server}
    (h : (broadcastPacket accepts type packet).run s = .ok () t) (fd : Nat) :
    t.clients.lookup fd = (s.clients.lookup fd).map fun client =>
      client.offered type packet := by
  rw [forM_maybeBroadcast_run_eq_ok s.clients.nodupKeys h]
  cases hfd : s.clients.lookup fd with
  | none => rfl
  | some client =>
      have hmem : fd ∈ s.clients.entries.keys :=
        AList.mem_keys.mp (AList.lookup_isSome.mp (by rw [hfd]; rfl))
      simp only [Option.map_some, if_pos hmem]

/-- A broadcast whose writes all succeed returns. -/
theorem broadcastPacket_returns {accepts : Nat → Bool} (h : ∀ fd, accepts fd = true)
    (type : BroadcastType) (packet : List Byte) (s : Server) :
    ∃ t, (broadcastPacket accepts type packet).run s = .ok () t := by
  have hone : ∀ this u, ∃ t, (maybeBroadcast accepts type packet this).run u = .ok () t := by
    intro this u
    rw [maybeBroadcast, run_get_bind]
    cases u.clients.lookup this with
    | none => exact ⟨u, rfl⟩
    | some client =>
        cases hwants : client.wantsBroadcastOfType type with
        | false =>
            simp only [hwants]
            exact ⟨u, rfl⟩
        | true =>
            simp only [hwants, if_true, send, h this]
            exact ⟨_, rfl⟩
  have hloop : ∀ (fds : List Nat) u, ∃ t, (forM fds (maybeBroadcast accepts type packet)).run u
      = .ok () t := by
    intro fds
    induction fds with
    | nil => exact fun u => ⟨u, rfl⟩
    | cons this fds ih =>
        intro u
        obtain ⟨v, hv⟩ := hone this u
        obtain ⟨t, ht⟩ := ih v
        exact ⟨t, run_bind_eq_ok.mpr ⟨(), v, hv, ht⟩⟩
  exact hloop s.clients.keys s

end Rpc
