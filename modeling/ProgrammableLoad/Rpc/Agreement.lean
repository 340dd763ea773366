/-
# `Rpc.Agreement` — a packet arrives as the message that was sent

The two ways of a packet between pinballd and its clients: what `sendPacket`
writes goes to `Client::bevRead`, and what `broadcastRaw` writes goes to
`ClientBase::bevRead`.  Either sender converts the size of the packet to the
16-bit length field, so a packet that is too large claims less than it has,
and pinballd takes no packet without a payload for a message.
-/
import ProgrammableLoad.Rpc.Broadcast
import ProgrammableLoad.Rpc.ClientBase

namespace Rpc

open Cpp Cbor Program

/-! ## The property -/

/-- The payload is that of a message with this item. -/
def Carries (cbor : Libcbor) (bytes : List Byte) : Option Item → Prop
  | none => bytes = []
  | some item => cbor.Encodes bytes item

inductive Direction where
  | toPinballd | toClient
deriving DecidableEq

/-- A packet that was sent is received as the message. -/
def Agrees (cbor : Libcbor) (endpoint : Byte) (bytes : List Byte) (item : Option Item) :
    Direction → Prop
  | .toPinballd => ∀ accepts c tag c',
      (ClientBase.sendPacket accepts endpoint bytes).run c = .ok tag c' →
      ∃ buf hdr received, c'.written = c.written ++ [buf] ∧
        Client.receive cbor buf = .ok (hdr, received) ∧
        hdr.endpoint = endpoint ∧ hdr.tag = tag ∧ item = some received
  | .toClient => ∀ accepts type s t,
      (broadcastRaw accepts type endpoint bytes).run s = .ok () t →
      ∀ fd client, s.clients.lookup fd = some client →
      client.wantsBroadcastOfType type = true →
      ∃ client' buf hdr, t.clients.lookup fd = some client' ∧
        client'.written = client.written ++ [buf] ∧
        ClientBase.receive cbor buf = .ok (some (hdr, item)) ∧
        hdr.endpoint = endpoint ∧ hdr.tag = 0

/-! ## The receivers on a packet -/

section Receivers

variable {cbor : Libcbor} {endpoint tag : Byte} {bytes : List Byte} {hdr : Header}

/-- The length a packet claims is its own if and only if its payload fits. -/
theorem claims_all_iff {n : Nat} :
    (headerSize ≤ (headerSize + n) % 65536 ∧ n ≤ (headerSize + n) % 65536 - headerSize) ↔
      n ≤ maxPayload := by
  unfold headerSize maxPayload
  omega

theorem receive_packet_iff {received : Item} :
    Client.receive cbor (packet endpoint tag bytes) = .ok (hdr, received) ↔
      headerSize ≤ (headerSize + bytes.length) % 65536 ∧
        hdr = Header.read (packet endpoint tag bytes) ∧
        cbor.load (bytes.take ((headerSize + bytes.length) % 65536 - headerSize))
          = .ok received := by
  rw [receive_eq_ok_iff, payload, drop_packet, toNat_length_packet]
  constructor
  · rintro ⟨hframed, hhdr, hload⟩
    have hle := hframed.le_length
    rw [toNat_length_packet] at hle
    exact ⟨hle, hhdr, hload⟩
  · rintro ⟨hle, hhdr, hload⟩
    refine ⟨⟨?_, version_packet _ _ _, ?_, ?_⟩, hhdr, hload⟩
    · rw [length_packet]
      omega
    · rw [toNat_length_packet]
      exact hle
    · rw [toNat_length_packet, length_packet]
      exact Nat.mod_le _ _

theorem clientBase_receive_packet_iff {item : Option Item} :
    ClientBase.receive cbor (packet endpoint tag bytes) = .ok (some (hdr, item)) ↔
      headerSize ≤ (headerSize + bytes.length) % 65536 ∧
        hdr = Header.read (packet endpoint tag bytes) ∧
        match item with
        | none => (headerSize + bytes.length) % 65536 = headerSize
        | some received => (headerSize + bytes.length) % 65536 ≠ headerSize ∧
            cbor.load (bytes.take ((headerSize + bytes.length) % 65536 - headerSize))
              = .ok received := by
  have hsize : ¬ (packet endpoint tag bytes).length < headerSize := by
    rw [length_packet]
    omega
  simp only [ClientBase.receive, hsize, if_false, version_packet, ne_eq, not_true_eq_false,
    toNat_length_packet]
  by_cases hlt : (headerSize + bytes.length) % 65536 < headerSize
  · simp [hlt, Nat.not_le.mpr hlt]
  · have hle : headerSize ≤ (headerSize + bytes.length) % 65536 := Nat.not_lt.mp hlt
    rw [if_neg hlt]
    by_cases hempty : (headerSize + bytes.length) % 65536 - headerSize = 0
    · have heq : (headerSize + bytes.length) % 65536 = headerSize := by omega
      rw [if_pos hempty]
      cases item <;> simp [heq, eq_comm]
    · have hne : (headerSize + bytes.length) % 65536 ≠ headerSize := by omega
      rw [if_neg hempty, except_bind_eq_ok]
      simp only [loadRegion_eq_ok_iff, drop_packet, length_packet, pure, Except.pure,
        Except.ok.injEq, Option.some.injEq, Prod.mk.injEq]
      have hregion : headerSize + ((headerSize + bytes.length) % 65536 - headerSize)
          ≤ headerSize + bytes.length := by
        rw [Nat.add_sub_cancel' hle]
        exact Nat.mod_le _ _
      constructor
      · rintro ⟨received, ⟨_, hload⟩, rfl, rfl⟩
        exact ⟨hle, rfl, hne, hload⟩
      · rintro ⟨_, rfl, hitem⟩
        cases item with
        | none => exact absurd hitem hne
        | some received => exact ⟨received, ⟨hregion, hitem.2⟩, rfl, rfl⟩

end Receivers

/-! ## The two directions -/

theorem agrees_toPinballd_iff {cbor : Libcbor} {endpoint : Byte} {bytes : List Byte}
    {item : Option Item} (h : Carries cbor bytes item) :
    Agrees cbor endpoint bytes item .toPinballd ↔
      bytes.length ≤ maxPayload ∧ bytes ≠ [] := by
  constructor
  · intro hagrees
    have hrun := ClientBase.sendPacket_run (fun _ => true) endpoint bytes ⟨0, [], []⟩
    obtain ⟨buf, hdr, received, hbuf, hreceive, _, _, rfl⟩ := hagrees _ _ _ _ hrun
    cases hbuf
    obtain ⟨hle, _, hload⟩ := receive_packet_iff.mp hreceive
    exact ⟨claims_all_iff.mp ⟨hle, (h.load_take_iff.mp hload).1⟩, h.ne_nil⟩
  · rintro ⟨hmax, hne⟩ accepts c tag c' hrun
    rw [ClientBase.sendPacket_run] at hrun
    split at hrun
    · cases hrun
      cases item with
      | none => exact absurd h hne
      | some item =>
          obtain ⟨hle, htake⟩ := claims_all_iff.mpr hmax
          exact ⟨_, _, item, rfl,
            receive_packet_iff.mpr ⟨hle, rfl, h.load_take_iff.mpr ⟨htake, rfl⟩⟩,
            endpoint_packet _ _ _, tag_packet _ _ _, rfl⟩
    · cases hrun

theorem agrees_toClient_iff {cbor : Libcbor} {endpoint : Byte} {bytes : List Byte}
    {item : Option Item} (h : Carries cbor bytes item) :
    Agrees cbor endpoint bytes item .toClient ↔ bytes.length ≤ maxPayload := by
  constructor
  · intro hagrees
    let client : Client := ⟨[], [], [], true, true, true⟩
    let s : Server := ⟨AList.insert 0 client ∅, ⟨[], [], .nearest⟩⟩
    have hclient : s.clients.lookup 0 = some client := AList.lookup_insert _
    have hrun : (broadcastRaw (fun _ => true) .touchEvent endpoint bytes).run s
        = .ok () (s.modifyClient 0 fun client =>
            { client with written := client.written ++ [packet endpoint 0 bytes] }) := rfl
    obtain ⟨client', buf, hdr, hlookup, hbuf, hreceive, _⟩ := hagrees _ _ s _ hrun 0 client
      hclient rfl
    rw [lookup_modifyClient, hclient] at hlookup
    cases hlookup
    cases hbuf
    obtain ⟨hle, _, hitem⟩ := clientBase_receive_packet_iff.mp hreceive
    cases item with
    | none =>
        have hnil : bytes = [] := h
        rw [hnil]
        exact Nat.zero_le _
    | some item => exact claims_all_iff.mp ⟨hle, (h.load_take_iff.mp hitem.2).1⟩
  · intro hmax accepts type s t hrun fd client hclient hwants
    have hlookup := broadcastPacket_run_eq_ok hrun fd
    rw [hclient, Option.map_some, Client.offered, if_pos hwants] at hlookup
    refine ⟨_, _, _, hlookup, rfl, clientBase_receive_packet_iff.mpr ⟨?_, rfl, ?_⟩,
      endpoint_packet _ _ _, tag_packet _ _ _⟩
    · exact (claims_all_iff.mpr hmax).1
    · obtain ⟨hle, htake⟩ := claims_all_iff.mpr hmax
      cases item with
      | none =>
          have hnil : bytes = [] := h
          subst hnil
          rfl
      | some item =>
          have hpos := List.length_pos_iff.mpr h.ne_nil
          exact ⟨by omega, h.load_take_iff.mpr ⟨htake, rfl⟩⟩

/-- In either direction a packet arrives as the message that was sent if and
only if its size fits the length field and, towards pinballd, it has a
payload. -/
theorem agrees_iff {cbor : Libcbor} {bytes : List Byte} {item : Option Item}
    (h : Carries cbor bytes item) (endpoint : Byte) (direction : Direction) :
    Agrees cbor endpoint bytes item direction ↔
      bytes.length ≤ maxPayload ∧ (direction = .toPinballd → bytes ≠ []) := by
  cases direction with
  | toPinballd => simp [agrees_toPinballd_iff h]
  | toClient => simp [agrees_toClient_iff h]

/-- A library that knows how `true` is encoded. -/
def libcborTrue : Libcbor :=
  .ofTable [([0xf5], Item.ctrlTrue)] (fun _ => [0xf5]) (by decide)

/-- A truth value arrives at a client. -/
theorem agrees_true_toClient :
    Agrees libcborTrue 0x02 [0xf5] (some Item.ctrlTrue) .toClient := by
  have h : Carries libcborTrue [0xf5] (some Item.ctrlTrue) :=
    Libcbor.ofTable_encodes rfl (by decide)
  exact (agrees_iff h 0x02 .toClient).mpr ⟨by decide, by decide⟩

/-- A packet without a payload does not arrive at pinballd. -/
theorem not_agrees_empty_toPinballd :
    ¬ Agrees libcborTrue kRpcEndpointNoOp [] none .toPinballd := by
  intro hagrees
  have h : Carries libcborTrue [] none := rfl
  exact ((agrees_toPinballd_iff h).mp hagrees).2 rfl

end Rpc
