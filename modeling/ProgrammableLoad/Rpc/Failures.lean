/-
# `Rpc.Failures` — broadcasts when a write fails

loadd logs a write that fails and goes on with the next client.  In pinballd
the write sits behind `maybeBroadcast` and `send`, which throws, so the first
failure ends the loop, and which clients are left out depends on the order of
the client map.
-/
import ProgrammableLoad.Rpc.Broadcast
import ProgrammableLoad.Rpc.RpcServer

namespace Rpc

open Cpp Program Table

/-! ## The property -/

/-- Whichever way the broadcast ends, every client of pinballd that wants it
and whose buffer event takes it has got it once. -/
def Server.Isolates (accepts : Nat → Bool) (type : BroadcastType) (packet : List Byte)
    (s : Server) : Prop :=
  ∀ fd client, s.clients.lookup fd = some client →
    client.wantsBroadcastOfType type = true → accepts fd = true →
    ((stateAfter (broadcastPacket accepts type packet) s).clients.lookup fd).map
      Client.written = some (client.written ++ [packet])

/-- The same for loadd, whose clients all want every broadcast. -/
def RpcServer.Isolates (accepts : Nat → Bool) (packet : List Byte) (s : RpcServer) : Prop :=
  ∀ ev client, s.clients.lookup ev = some client → accepts ev = true →
    ((stateAfter (RpcServer.broadcastPacket accepts packet) s).clients.lookup ev).map
      RpcServer.Client.written = some (client.written ++ [packet])

section Pinballd

variable {accepts : Nat → Bool} {type : BroadcastType} {packet : List Byte} {s t : Server}
  {this : Nat}

def Server.wants (s : Server) (type : BroadcastType) (fd : Nat) : Bool :=
  (s.clients.lookup fd).any fun client => client.wantsBroadcastOfType type

/-- The client does not end the loop. -/
def Server.passes (s : Server) (accepts : Nat → Bool) (type : BroadcastType) (fd : Nat) : Bool :=
  !s.wants type fd || accepts fd

/-- The client wants the packet, and its buffer event takes it. -/
def Server.takes (s : Server) (accepts : Nat → Bool) (type : BroadcastType) (fd : Nat) : Bool :=
  s.wants type fd && accepts fd

/-- In the order of the client map, no client that takes the packet comes
after one that wants it and whose write fails. -/
def Server.FailuresLast (accepts : Nat → Bool) (type : BroadcastType) (s : Server) : Prop :=
  s.clients.keys.Pairwise fun a b =>
    s.passes accepts type a = true ∨ s.takes accepts type b = false

/-! ## The loop -/

variable (packet) in
theorem maybeBroadcast_run_of_passes (h : s.passes accepts type this = true) :
    ∃ t, (maybeBroadcast accepts type packet this).run s = .ok () t := by
  rw [maybeBroadcast, run_get_bind]
  cases hthis : s.clients.lookup this with
  | none => exact ⟨s, rfl⟩
  | some client =>
      cases hwants : client.wantsBroadcastOfType type with
      | false =>
          simp only [hwants]
          exact ⟨s, rfl⟩
      | true =>
          have haccepts : accepts this = true := by
            simpa [Server.passes, Server.wants, hthis, hwants] using h
          simp only [hwants, if_true, send, haccepts]
          exact ⟨_, rfl⟩

variable (packet) in
theorem maybeBroadcast_run_of_not_passes (h : s.passes accepts type this = false) :
    ∃ e, (maybeBroadcast accepts type packet this).run s = .error e s := by
  rw [maybeBroadcast, run_get_bind]
  cases hthis : s.clients.lookup this with
  | none => simp [Server.passes, Server.wants, hthis] at h
  | some client =>
      have hclient : client.wantsBroadcastOfType type = true ∧ accepts this = false := by
        simpa [Server.passes, Server.wants, hthis] using h
      simp only [hclient.1, if_true, send, hclient.2]
      exact ⟨_, rfl⟩

@[simp] theorem wants_offered (client : Client) (type' : BroadcastType) :
    (client.offered type packet).wantsBroadcastOfType type'
      = client.wantsBroadcastOfType type' := by
  unfold Client.offered
  split
  · cases type' <;> rfl
  · rfl

/-- The loop offers the packet to the clients up to the first that ends it. -/
theorem lookup_forM_maybeBroadcast {fds : List Nat} (hnodup : fds.Nodup) (fd : Nat) :
    (stateAfter (forM fds (maybeBroadcast accepts type packet)) s).clients.lookup fd
      = (s.clients.lookup fd).map fun client =>
        if fd ∈ fds.takeWhile (s.passes accepts type) then client.offered type packet
        else client := by
  induction fds generalizing s with
  | nil =>
      show s.clients.lookup fd = _
      simp
  | cons this fds ih =>
      obtain ⟨hnot, hnodup⟩ := List.nodup_cons.mp hnodup
      rw [List.forM_cons]
      cases hpasses : s.passes accepts type this with
      | false =>
          obtain ⟨e, he⟩ := maybeBroadcast_run_of_not_passes packet hpasses
          rw [stateAfter_bind_of_error he]
          simp [hpasses]
      | true =>
          obtain ⟨t, ht⟩ := maybeBroadcast_run_of_passes packet hpasses
          have hlookup := maybeBroadcast_run_eq_ok ht
          have hstays : t.passes accepts type = s.passes accepts type := by
            funext other
            simp only [Server.passes, Server.wants, hlookup, Option.any_map]
            cases s.clients.lookup other with
            | none => rfl
            | some client => by_cases hother : other = this <;> simp [hother]
          rw [stateAfter_bind_of_ok ht, ih hnodup, hlookup, Option.map_map, hstays]
          congr 1
          funext client
          by_cases hfd : fd = this
          · subst hfd
            have hnot' : fd ∉ fds.takeWhile (s.passes accepts type) :=
              fun hmem => hnot (List.takeWhile_subset _ hmem)
            simp [hpasses, hnot']
          · simp [hpasses, hfd]

theorem Server.isolates_iff : s.Isolates accepts type packet ↔ s.FailuresLast accepts type := by
  have hnodup := s.clients.keys_nodup
  have hqp : ∀ fd, s.takes accepts type fd = true → s.passes accepts type fd = true := by
    intro fd h
    rw [Server.takes, Bool.and_eq_true] at h
    simp [Server.passes, h.2]
  unfold Server.FailuresLast
  rw [← mem_takeWhile_iff_pairwise hqp hnodup]
  have hstate : ∀ fd, (stateAfter (broadcastPacket accepts type packet) s).clients.lookup fd = _ :=
    fun fd => lookup_forM_maybeBroadcast hnodup fd
  constructor
  · intro h fd hfd htakes
    obtain ⟨client, hclient⟩ := Option.isSome_iff_exists.mp
      (AList.lookup_isSome.mpr (AList.mem_keys.mpr hfd))
    have hboth : client.wantsBroadcastOfType type = true ∧ accepts fd = true := by
      simpa [Server.takes, Server.wants, hclient] using htakes
    have hwritten := h fd client hclient hboth.1 hboth.2
    rw [hstate, hclient] at hwritten
    by_contra hmem
    simp [hmem] at hwritten
  · intro h fd client hclient hwants haccepts
    have hfd : fd ∈ s.clients.keys :=
      AList.mem_keys.mp (AList.lookup_isSome.mp (by rw [hclient]; rfl))
    have hmem := h fd hfd (by simp [Server.takes, Server.wants, hclient, hwants, haccepts])
    rw [hstate, hclient, Option.map_some, if_pos hmem, Option.map_some, Client.offered,
      if_pos hwants]

end Pinballd

theorem RpcServer.isolates (accepts : Nat → Bool) (packet : List Byte) (s : RpcServer) :
    s.Isolates accepts packet := by
  intro ev client hclient haccepts
  obtain ⟨t, ht, hlookup⟩ := RpcServer.broadcastPacket_run accepts packet s
  rw [stateAfter_of_ok ht, hlookup, hclient, Option.map_some, Option.map_some,
    RpcServer.offered, if_pos haccepts]

/-- A failing write keeps no other client of the two daemons from the packet
if and only if, in the order of pinballd's client map, no client that takes it
comes after one whose write fails. -/
theorem broadcasts_isolated_iff (accepts : Nat → Bool) (type : BroadcastType)
    (packet : List Byte) (s : Server) (acceptsEvent : Nat → Bool) (r : RpcServer) :
    (s.Isolates accepts type packet ∧ r.Isolates acceptsEvent packet) ↔
      s.FailuresLast accepts type := by
  rw [Server.isolates_iff]
  exact and_iff_left (RpcServer.isolates acceptsEvent packet r)

/-- Two clients of pinballd that want touch events, in this order. -/
def twoTouchClients : Server where
  clients := (AList.insert 4 ⟨[], [], [], true, false, false⟩
    (AList.insert 5 ⟨[], [], [], true, false, false⟩ ∅))
  ledManager := ⟨[], [], .nearest⟩

/-- The write to the first fails and the second never gets the packet. -/
theorem not_isolates_second_client :
    ¬ (twoTouchClients.Isolates (fun fd => fd == 5) .touchEvent (packet 0x02 0 [0xa0]) ∧
      (RpcServer.mk ∅ [] [] ∅).Isolates (fun _ => true) (packet 0x02 0 [0xa0])) := by
  rintro ⟨h, _⟩
  have hwritten := h 5 ⟨[], [], [], true, false, false⟩ (by rfl) rfl rfl
  have hstate : stateAfter (broadcastPacket (fun fd => fd == 5) .touchEvent
      (packet 0x02 0 [0xa0])) twoTouchClients = twoTouchClients := rfl
  rw [hstate] at hwritten
  cases hwritten

end Rpc
