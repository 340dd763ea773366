/-
# `Rpc.Grouping` — several packets in one read callback

A read callback fires when a whole header or more is pending, and that may be
several packets.  All three receivers drain everything and then look at a
single header: what follows the first packet is lost, and in loadd it is sent
on together with it.

The packets here are well-formed, and a group of them is what one callback
finds pending.
-/
import ProgrammableLoad.Rpc.ClientBase
import ProgrammableLoad.Rpc.Client
import ProgrammableLoad.Rpc.ControlEpHandler

namespace Rpc

open Cpp Cbor Program

/-! ## Packets and groups of them -/

/-- A packet of the latest version whose length field is its size. -/
structure WirePacket where
  bytes : List Byte
  complete : headerSize ≤ bytes.length
  version_eq : (Header.read bytes).version = kRpcVersionLatest
  length_eq : (Header.read bytes).length.toNat = bytes.length

namespace WirePacket

def header (p : WirePacket) : Header := Header.read p.bytes

def payload (p : WirePacket) : List Byte := p.bytes.drop headerSize

def flagged (p : WirePacket) : Bool := p.header.flags &&& kRpcFlagBroadcast ≠ 0

end WirePacket

/-- The packets pending in one callback: at least one. -/
structure ReadGroup where
  first : WirePacket
  rest : List WirePacket

namespace ReadGroup

def packets (g : ReadGroup) : List WirePacket := g.first :: g.rest

/-- The bytes pending. -/
def pending (g : ReadGroup) : List Byte := (g.packets.map WirePacket.bytes).flatten

variable {g : ReadGroup}

theorem pending_eq : g.pending = g.first.bytes ++ (g.rest.map WirePacket.bytes).flatten := rfl

theorem pending_of_single (h : g.rest = []) : g.pending = g.first.bytes := by
  rw [pending_eq, h]
  exact List.append_nil _

@[simp] theorem read_pending : Header.read g.pending = g.first.header :=
  Header.read_append g.first.complete _

theorem length_first_le : g.first.bytes.length ≤ g.pending.length := by
  rw [pending_eq, List.length_append]
  exact Nat.le_add_right _ _

/-- The payload of the first packet is the region its header claims. -/
theorem take_pending :
    (g.pending.drop headerSize).take (g.first.bytes.length - headerSize) = g.first.payload := by
  rw [pending_eq, List.drop_append_of_le_length g.first.complete]
  refine List.take_left' ?_
  rw [List.length_drop]

theorem wellFramed_pending : WellFramed g.pending where
  complete := Nat.le_trans g.first.complete length_first_le
  version := by rw [read_pending]; exact g.first.version_eq
  le_length := by
    rw [read_pending, WirePacket.header, g.first.length_eq]
    exact g.first.complete
  length_le := by
    rw [read_pending, WirePacket.header, g.first.length_eq]
    exact length_first_le

/-- More than one packet is no packet. -/
theorem pending_ne_bytes (h : g.rest ≠ []) (p : WirePacket) : p.bytes ≠ g.pending := by
  intro hp
  have hlen := p.length_eq
  rw [hp, read_pending, WirePacket.header, g.first.length_eq, pending_eq,
    List.length_append] at hlen
  obtain ⟨q, rest, hrest⟩ := List.exists_cons_of_ne_nil h
  have hq := q.complete
  rw [hrest, List.map_cons, List.flatten_cons, List.length_append] at hlen
  unfold headerSize at hq
  omega

end ReadGroup

/-- All packets of a list of groups, in order. -/
def allPackets (groups : List ReadGroup) : List WirePacket := groups.flatMap ReadGroup.packets

/-- Every group is a single packet. -/
def Single (groups : List ReadGroup) : Prop := ∀ g ∈ groups, g.rest = []

theorem allPackets_cons (g : ReadGroup) (groups : List ReadGroup) :
    allPackets (g :: groups) = g.packets ++ allPackets groups := List.flatMap_cons

theorem single_cons {g : ReadGroup} {groups : List ReadGroup} :
    Single (g :: groups) ↔ g.rest = [] ∧ Single groups := List.forall_mem_cons

theorem length_le_allPackets (groups : List ReadGroup) :
    groups.length ≤ (allPackets groups).length := by
  induction groups with
  | nil => exact Nat.le_refl 0
  | cons g groups ih =>
      rw [allPackets_cons, List.length_append, ReadGroup.packets, List.length_cons,
        List.length_cons]
      omega

theorem allPackets_eq_nil {groups : List ReadGroup} : allPackets groups = [] ↔ groups = [] := by
  cases groups with
  | nil => exact ⟨fun _ => rfl, fun _ => rfl⟩
  | cons g groups => exact ⟨fun h => (nomatch h), fun h => (nomatch h)⟩

/-! ## The clients of the common library -/

namespace ClientBase

/-- What a read callback passes to `handleIncomingMessageRaw`. -/
def rawMessage (pending : List Byte) : Option (Header × List Byte) :=
  (frame pending).map fun region =>
    (Header.read pending, (pending.drop region.offset).take region.length)

/-- Every packet reaches the handler once, in order. -/
def Whole (groups : List ReadGroup) : Prop :=
  (groups.map ReadGroup.pending).filterMap rawMessage
    = (allPackets groups).map fun p => (p.header, p.payload)

theorem rawMessage_pending (g : ReadGroup) :
    rawMessage g.pending = some (g.first.header, g.first.payload) := by
  have hframed := g.wellFramed_pending
  have hframe := frame_eq_some_iff.mpr
    ⟨hframed.complete, hframed.version, hframed.le_length, rfl⟩
  rw [rawMessage, hframe]
  simp only [Option.map_some, ReadGroup.read_pending]
  rw [WirePacket.header, g.first.length_eq, ReadGroup.take_pending]

theorem filterMap_rawMessage (groups : List ReadGroup) :
    (groups.map ReadGroup.pending).filterMap rawMessage
      = groups.map fun g => (g.first.header, g.first.payload) := by
  have hfun : rawMessage ∘ ReadGroup.pending
      = fun g => some (g.first.header, g.first.payload) := funext rawMessage_pending
  rw [List.filterMap_map, hfun, List.filterMap_eq_map']

/-- There are as many messages as groups. -/
theorem whole_iff (groups : List ReadGroup) : Whole groups ↔ Single groups := by
  rw [Whole, filterMap_rawMessage]
  induction groups with
  | nil => exact ⟨fun _ _ hg => (nomatch hg), fun _ => rfl⟩
  | cons g groups ih =>
      rw [single_cons, ← ih, allPackets_cons, ReadGroup.packets]
      constructor
      · intro h
        have hlen := congrArg List.length h
        have hle := length_le_allPackets groups
        simp only [List.length_map, List.length_append, List.length_cons] at hlen
        have hrest : g.rest = [] := List.eq_nil_of_length_eq_zero (by omega)
        rw [hrest] at h
        exact ⟨hrest, List.tail_eq_of_cons_eq h⟩
      · rintro ⟨hrest, h⟩
        rw [hrest, List.map_cons, h]
        rfl

end ClientBase

/-! ## pinballd -/

section Pinballd

variable (cbor : Libcbor) (table : IndicatorTable) (this : Nat)

/-- What a list of read callbacks passes to `dispatchPacket`, up to the first
that ends in an exception and with it the event loop. -/
def Client.dispatched : Server → List (List Byte) → List (Header × Item)
  | _, [] => []
  | s, pending :: rest =>
      match Client.receive cbor pending with
      | .error _ => []
      | .ok message =>
          message :: match (readCallback cbor table this pending true).run s with
            | .ok _ t => Client.dispatched t rest
            | .error _ _ => []

/-- Every packet is dispatched once, in order, with the item of its payload. -/
def Client.Whole (s : Server) (groups : List ReadGroup) : Prop :=
  List.Forall₂ (fun p (message : Header × Item) =>
      message.1 = p.header ∧ cbor.load p.payload = .ok message.2)
    (allPackets groups)
    (Client.dispatched cbor table this s (groups.map ReadGroup.pending))

/-- Every payload loads, and the endpoint of every packet but the last handles
its item. -/
def Servable : Server → List WirePacket → Prop
  | _, [] => True
  | s, p :: rest => ∃ item, cbor.load p.payload = .ok item ∧
      (rest = [] ∨ ∃ t, (dispatchPacket table this p.header item).run
        (s.modifyClient this fun client => { client with receiveBuf := p.bytes }) = .ok () t ∧
          Servable t rest)

variable {cbor table this}

theorem receive_pending_iff {g : ReadGroup} {message : Header × Item} :
    Client.receive cbor g.pending = .ok message ↔
      message.1 = g.first.header ∧ cbor.load g.first.payload = .ok message.2 := by
  obtain ⟨hdr, item⟩ := message
  rw [receive_eq_ok_iff, payload, ReadGroup.read_pending]
  have htake := g.take_pending
  rw [← g.first.length_eq] at htake
  rw [show g.first.header.length = (Header.read g.first.bytes).length from rfl, htake]
  exact and_iff_right g.wellFramed_pending

variable (table this) in
theorem readCallback_pending_iff {g : ReadGroup} {s t : Server} {item : Item}
    (hload : cbor.load g.first.payload = .ok item) :
    (readCallback cbor table this g.pending true).run s = .ok () t ↔
      (dispatchPacket table this g.first.header item).run
        (s.modifyClient this fun client => { client with receiveBuf := g.pending })
          = .ok () t := by
  rw [readCallback_run, bevRead_run_eq_ok_iff]
  have hreceive : Client.receive cbor g.pending = .ok (g.first.header, item) :=
    receive_pending_iff.mpr ⟨rfl, hload⟩
  rw [hreceive]
  constructor
  · rintro ⟨_, _, heq, hrun⟩
    cases heq
    exact hrun
  · intro hrun
    exact ⟨_, _, rfl, hrun⟩

variable (cbor table this) in
theorem length_dispatched_le (s : Server) (reads : List (List Byte)) :
    (Client.dispatched cbor table this s reads).length ≤ reads.length := by
  induction reads generalizing s with
  | nil => exact Nat.le_refl 0
  | cons pending reads ih =>
      rw [Client.dispatched]
      cases Client.receive cbor pending with
      | error e => exact Nat.zero_le _
      | ok message =>
          simp only [List.length_cons]
          cases (readCallback cbor table this pending true).run s with
          | ok _ t => exact Nat.succ_le_succ (ih t)
          | error e t => exact Nat.succ_le_succ (Nat.zero_le _)

variable {s : Server} {g : ReadGroup} {groups : List ReadGroup}

/-- Of a group of several packets only one is dispatched. -/
theorem Client.not_whole_of_rest (h : g.rest ≠ []) :
    ¬ Client.Whole cbor table this s (g :: groups) := by
  intro hwhole
  have hlen := hwhole.length_eq
  have hle := length_dispatched_le cbor table this s ((g :: groups).map ReadGroup.pending)
  have hall := length_le_allPackets groups
  have hpos := List.length_pos_iff.mpr h
  rw [allPackets_cons, List.length_append, ReadGroup.packets, List.length_cons] at hlen
  rw [List.length_map, List.length_cons] at hle
  omega

theorem Client.not_whole_of_load_error {e : LoadFailure}
    (h : cbor.load g.first.payload = .error e) :
    ¬ Client.Whole cbor table this s (g :: groups) := by
  intro hwhole
  rw [Client.Whole, allPackets_cons, List.map_cons, Client.dispatched] at hwhole
  cases hreceive : Client.receive cbor g.pending with
  | error _ =>
      rw [hreceive] at hwhole
      cases hwhole
  | ok message =>
      rw [receive_pending_iff, h] at hreceive
      cases hreceive.2

/-- A single packet whose payload loads is dispatched, and what follows it too
if the endpoint handles its item. -/
theorem Client.whole_cons_iff {item : Item} (hrest : g.rest = [])
    (hload : cbor.load g.first.payload = .ok item) :
    Client.Whole cbor table this s (g :: groups) ↔
      groups = [] ∨ ∃ t, (dispatchPacket table this g.first.header item).run
        (s.modifyClient this fun client => { client with receiveBuf := g.first.bytes })
          = .ok () t ∧ Client.Whole cbor table this t groups := by
  have hreceive : Client.receive cbor g.pending = .ok (g.first.header, item) :=
    receive_pending_iff.mpr ⟨rfl, hload⟩
  have hcallback : ∀ t, _ ↔ _ := fun t =>
    readCallback_pending_iff table this (s := s) (t := t) hload
  rw [ReadGroup.pending_of_single hrest] at hreceive hcallback
  rw [Client.Whole, allPackets_cons, List.map_cons, Client.dispatched, ReadGroup.packets, hrest,
    ReadGroup.pending_of_single hrest, hreceive, List.singleton_append, List.forall₂_cons,
    and_iff_right ⟨rfl, hload⟩]
  cases hrun : (readCallback cbor table this g.first.bytes true).run s with
  | ok _ t =>
      have hdispatch := (hcallback t).mp hrun
      constructor
      · intro h
        exact .inr ⟨t, hdispatch, h⟩
      · rintro (rfl | ⟨t', ht', h⟩)
        · exact .nil
        · rw [hdispatch] at ht'
          cases ht'
          exact h
  | error e t =>
      rw [List.forall₂_nil_right_iff, allPackets_eq_nil]
      refine ⟨.inl, ?_⟩
      rintro (hnil | ⟨t', ht', _⟩)
      · exact hnil
      · rw [(hcallback t').mpr ht'] at hrun
        cases hrun

theorem Client.whole_iff (s : Server) (groups : List ReadGroup) :
    Client.Whole cbor table this s groups ↔
      Single groups ∧ Servable cbor table this s (allPackets groups) := by
  induction groups generalizing s with
  | nil => exact ⟨fun _ => ⟨fun _ hg => (nomatch hg), trivial⟩, fun _ => .nil⟩
  | cons g groups ih =>
      rw [single_cons, allPackets_cons, ReadGroup.packets]
      by_cases hrest : g.rest = []
      · rw [hrest, List.singleton_append, Servable, and_iff_right rfl]
        cases hload : cbor.load g.first.payload with
        | error e =>
            refine iff_of_false (Client.not_whole_of_load_error hload) ?_
            rintro ⟨_, item, hitem, _⟩
            cases hitem
        | ok item =>
            rw [Client.whole_cons_iff hrest hload]
            constructor
            · rintro (rfl | ⟨t, ht, hwhole⟩)
              · exact ⟨fun _ hg => (nomatch hg), item, rfl, .inl rfl⟩
              · obtain ⟨hsingle, hservable⟩ := (ih t).mp hwhole
                exact ⟨hsingle, item, rfl, .inr ⟨t, ht, hservable⟩⟩
            · rintro ⟨hsingle, item', hitem, hnil | ⟨t, ht, hservable⟩⟩
              · exact .inl (allPackets_eq_nil.mp hnil)
              · cases hitem
                exact .inr ⟨t, ht, (ih t).mpr ⟨hsingle, hservable⟩⟩
      · refine iff_of_false (Client.not_whole_of_rest hrest) ?_
        rintro ⟨⟨hnil, _⟩, _⟩
        exact hrest hnil

end Pinballd

/-! ## loadd -/

namespace ControlEpHandler

/-- The packets that are to be broadcast. -/
def flaggedBytes (packets : List WirePacket) : List (List Byte) :=
  (packets.filter WirePacket.flagged).map WirePacket.bytes

/-- Every client whose buffer event takes everything gets exactly the packets
with the broadcast flag, in order. -/
def Whole (groups : List ReadGroup) : Prop :=
  ∀ accepts s rpc ev client, s.lrpc = some rpc → rpc.clients.lookup ev = some client →
    accepts ev = true →
    ∃ t rpc', (forM (groups.map ReadGroup.pending) (readCallback accepts)).run s = .ok () t ∧
      t.lrpc = some rpc' ∧ (rpc'.clients.lookup ev).map RpcServer.Client.written
        = some (client.written ++ flaggedBytes (allPackets groups))

/-- No broadcast shares a group with another packet. -/
def BroadcastsAlone (groups : List ReadGroup) : Prop :=
  ∀ g ∈ groups, g.rest = [] ∨ ∀ p ∈ g.packets, p.flagged = false

theorem whole_iff_broadcasts (groups : List ReadGroup) :
    Whole groups ↔
      broadcasts (groups.map ReadGroup.pending) = flaggedBytes (allPackets groups) := by
  constructor
  · intro h
    let client : RpcServer.Client := ⟨4, [], []⟩
    let rpc : RpcServer := ⟨AList.insert 0 client ∅, [], [], ∅⟩
    have hclient : rpc.clients.lookup 0 = some client := AList.lookup_insert _
    obtain ⟨t, rpc', ht, hlrpc, hwritten⟩ := h (fun _ => true) ⟨[], some rpc⟩ rpc 0 client rfl
      hclient rfl
    obtain ⟨t', rpc'', ht', hlrpc', hwritten'⟩ := forM_readCallback_run
      (fun _ => true) (groups.map ReadGroup.pending) (s := ⟨[], some rpc⟩) rfl
    rw [ht] at ht'
    cases ht'
    rw [hlrpc] at hlrpc'
    cases hlrpc'
    rw [hwritten' 0 rfl, hclient] at hwritten
    exact Option.some.inj hwritten
  · intro h accepts s rpc ev client hlrpc hclient hev
    obtain ⟨t, rpc', ht, hlrpc', hwritten⟩ := forM_readCallback_run
      accepts (groups.map ReadGroup.pending) hlrpc
    refine ⟨t, rpc', ht, hlrpc', ?_⟩
    rw [hwritten ev hev, hclient, h]
    rfl

theorem route_pending (g : ReadGroup) :
    route g.pending = .ok (if g.first.flagged then some g.pending else none) := by
  have hframed := g.wellFramed_pending
  have hsize := Nat.not_lt.mpr hframed.complete
  have hflags : (Header.read g.pending).flags = g.first.header.flags := by
    rw [ReadGroup.read_pending]
  simp only [route, hsize, if_false, hframed.version, ne_eq, not_true_eq_false, hflags]
  by_cases h : g.first.header.flags &&& kRpcFlagBroadcast = 0
  · simp [WirePacket.flagged, h]
  · have hflagged : g.first.flagged = true := by simpa [WirePacket.flagged] using h
    rw [if_pos h, hflagged]
    rfl

theorem broadcasts_pending (groups : List ReadGroup) :
    broadcasts (groups.map ReadGroup.pending)
      = (groups.filter fun g => g.first.flagged).map ReadGroup.pending := by
  induction groups with
  | nil => rfl
  | cons g groups ih =>
      rw [broadcasts] at ih ⊢
      rw [List.map_cons, List.filterMap_cons, ih, route_pending]
      cases hg : g.first.flagged with
      | false => simp [Except.toOption, hg]
      | true => simp [Except.toOption, hg]

theorem flaggedBytes_cons (g : ReadGroup) (groups : List ReadGroup) :
    flaggedBytes (allPackets (g :: groups))
      = flaggedBytes g.packets ++ flaggedBytes (allPackets groups) := by
  rw [flaggedBytes, allPackets_cons, List.filter_append, List.map_append]
  rfl

theorem flaggedBytes_packets {g : ReadGroup} (hg : g.first.flagged = true) :
    flaggedBytes g.packets = g.first.bytes :: flaggedBytes g.rest := by
  rw [flaggedBytes, ReadGroup.packets, List.filter_cons_of_pos hg]
  rfl

/-- There are at most as many broadcasts as packets to broadcast. -/
theorem length_broadcasts_le (groups : List ReadGroup) :
    (groups.filter fun g => g.first.flagged).length
      ≤ (flaggedBytes (allPackets groups)).length := by
  induction groups with
  | nil => exact Nat.le_refl 0
  | cons g groups ih =>
      rw [flaggedBytes_cons, List.length_append]
      cases hg : g.first.flagged with
      | false =>
          rw [List.filter_cons_of_neg (by rw [hg]; exact Bool.false_ne_true)]
          omega
      | true =>
          rw [List.filter_cons_of_pos (by exact hg), List.length_cons, flaggedBytes_packets hg,
            List.length_cons]
          omega

theorem flaggedBytes_eq_nil_iff {packets : List WirePacket} :
    flaggedBytes packets = [] ↔ ∀ p ∈ packets, p.flagged = false := by
  rw [flaggedBytes, List.map_eq_nil_iff, List.filter_eq_nil_iff]
  simp only [Bool.not_eq_true]

/-- A group without a broadcast adds nothing to either side. -/
theorem broadcasts_cons_of_not_flagged {g : ReadGroup} (hg : g.first.flagged = false)
    (groups : List ReadGroup) :
    broadcasts ((g :: groups).map ReadGroup.pending) = flaggedBytes (allPackets (g :: groups)) ↔
      flaggedBytes g.packets = [] ∧
        broadcasts (groups.map ReadGroup.pending) = flaggedBytes (allPackets groups) := by
  have hfilter : (g :: groups).filter (fun g => g.first.flagged)
      = groups.filter fun g => g.first.flagged :=
    List.filter_cons_of_neg (by rw [hg]; exact Bool.false_ne_true)
  have hlen := length_broadcasts_le groups
  rw [broadcasts_pending, broadcasts_pending, hfilter, flaggedBytes_cons]
  constructor
  · intro h
    have hcount := congrArg List.length h
    rw [List.length_map, List.length_append] at hcount
    have hnil : flaggedBytes g.packets = [] := List.eq_nil_of_length_eq_zero (by omega)
    rw [hnil] at h
    exact ⟨hnil, h⟩
  · rintro ⟨hnil, h⟩
    rw [hnil]
    exact h

/-- A group that starts with a broadcast is sent as it is. -/
theorem broadcasts_cons_of_flagged {g : ReadGroup} (hg : g.first.flagged = true)
    (groups : List ReadGroup) :
    broadcasts ((g :: groups).map ReadGroup.pending) = flaggedBytes (allPackets (g :: groups)) ↔
      g.rest = [] ∧
        broadcasts (groups.map ReadGroup.pending) = flaggedBytes (allPackets groups) := by
  have hfilter : (g :: groups).filter (fun g => g.first.flagged)
      = g :: groups.filter fun g => g.first.flagged := List.filter_cons_of_pos hg
  rw [broadcasts_pending, broadcasts_pending, hfilter, List.map_cons, flaggedBytes_cons,
    flaggedBytes_packets hg, List.cons_append]
  constructor
  · intro h
    obtain ⟨hpending, h⟩ := List.cons_eq_cons.mp h
    have hrest : g.rest = [] := by
      by_contra hrest
      exact ReadGroup.pending_ne_bytes hrest g.first hpending.symm
    rw [hrest] at h
    exact ⟨hrest, h⟩
  · rintro ⟨hrest, h⟩
    rw [ReadGroup.pending_of_single hrest, h, hrest]
    rfl

theorem whole_iff (groups : List ReadGroup) : Whole groups ↔ BroadcastsAlone groups := by
  rw [whole_iff_broadcasts]
  induction groups with
  | nil => exact ⟨fun _ _ hg => (nomatch hg), fun _ => rfl⟩
  | cons g groups ih =>
      have hstep : BroadcastsAlone (g :: groups) ↔
          (g.rest = [] ∨ ∀ p ∈ g.packets, p.flagged = false) ∧ BroadcastsAlone groups :=
        List.forall_mem_cons
      rw [hstep, ← ih]
      cases hg : g.first.flagged with
      | false =>
          rw [broadcasts_cons_of_not_flagged hg, flaggedBytes_eq_nil_iff]
          refine and_congr_left fun _ => (or_iff_right_of_imp fun hrest p hp => ?_).symm
          rw [ReadGroup.packets, hrest] at hp
          rw [List.mem_singleton.mp hp]
          exact hg
      | true =>
          rw [broadcasts_cons_of_flagged hg]
          refine and_congr_left fun _ => (or_iff_left fun hall => ?_).symm
          rw [hall g.first List.mem_cons_self] at hg
          cases hg

end ControlEpHandler

/-! ## The three receivers -/

/-- Which groups of packets each receiver handles packet by packet: a client of
the common library those of single packets; pinballd the same, as far as its
endpoints let it go on; and loadd those in which broadcasts are alone. -/
theorem receivers_whole_iff (groups : List ReadGroup) :
    (ClientBase.Whole groups ↔ Single groups) ∧
    (∀ cbor table this s, Client.Whole cbor table this s groups ↔
      Single groups ∧ Servable cbor table this s (allPackets groups)) ∧
    (ControlEpHandler.Whole groups ↔ ControlEpHandler.BroadcastsAlone groups) :=
  ⟨ClientBase.whole_iff groups, fun _ _ _ s => Client.whole_iff s groups,
    ControlEpHandler.whole_iff groups⟩

/-- A packet to the endpoint that ignores everything, with the broadcast flag
and `true` for a payload. -/
def flaggedNoOp : WirePacket where
  bytes := [0x00, 0x01, 0x09, 0x00, 0x00, 0x00, 0x02, 0x00, 0xf5]
  complete := by decide
  version_eq := by decide
  length_eq := by decide

/-- Of two such packets in one callback, no receiver handles each by itself. -/
theorem not_whole_two_noOps :
    ¬ ClientBase.Whole [⟨flaggedNoOp, [flaggedNoOp]⟩] ∧
    ¬ Client.Whole (.ofTable [([0xf5], Item.ctrlTrue)] (fun _ => [0xf5]) (by decide))
      ⟨kIndicators, .refl _⟩ 4 ⟨∅, [], [], .nearest⟩ [⟨flaggedNoOp, [flaggedNoOp]⟩] ∧
    ¬ ControlEpHandler.Whole [⟨flaggedNoOp, [flaggedNoOp]⟩] := by
  have hmany : ¬ Single [⟨flaggedNoOp, [flaggedNoOp]⟩] := by
    intro h
    cases h _ List.mem_cons_self
  refine ⟨?_, ?_, ?_⟩
  · exact fun h => hmany ((ClientBase.whole_iff _).mp h)
  · exact fun h => hmany ((Client.whole_iff _ _).mp h).1
  · intro h
    rcases (ControlEpHandler.whole_iff _).mp h _ List.mem_cons_self with hrest | hall
    · cases hrest
    · cases hall flaggedNoOp List.mem_cons_self

end Rpc
