/-
# `Rpc.Isolation` — what a client of pinballd can send without harm

A message is isolated when handling it returns to libevent and changes no
other client.  The second part holds of every message.  The first part holds
exactly of what is too short for a callback, and of the messages that are
acceptable from the header to the last value: `isolated_iff_acceptable`.
Everything else, down to a wrong version or an unknown endpoint, leaves the read
callback as an exception, or worse.
-/
import ProgrammableLoad.Rpc.Client

namespace Rpc

open Cpp Cbor Cbor.Util Led Program

/-! ## The property -/

/-- Handling the message returns, and the other clients are as they were. -/
def Isolated (cbor : Libcbor) (table : IndicatorTable) (s : Server) (this : Nat)
    (pending : List Byte) (drains : Bool) : Prop :=
  ∃ t, (readEvent cbor table this pending drains).run s = .ok () t ∧
    OthersUnchanged this s t

/-- A key of the broadcast configuration is missing or has a truth value or a
float. -/
def Configures (item : Item) : Prop :=
  ∀ key ∈ ["touch", "button", "encoder"],
    Finds item key fun value => value.isBool = true ∨ value.isFloat = true

/-- The endpoint can serve the item. -/
def Served (led : LedManager) (endpoint : Byte) (item : Item) : Prop :=
  endpoint = kRpcEndpointNoOp ∨
    (endpoint = kRpcEndpointBroadcastConfig ∧ Configures item) ∨
    (endpoint = kRpcEndpointIndicator ∧ Updatable led item kIndicators)

structure Acceptable (cbor : Libcbor) (led : LedManager) (pending : List Byte)
    (drains : Bool) : Prop where
  drained : drains = true
  framed : WellFramed pending
  served : ∃ item, cbor.load (payload pending) = .ok item ∧
    Served led (Header.read pending).endpoint item

/-! ## One lemma per function -/

theorem updateWants_returns_iff {this : Nat} {item : Item} {key : String}
    {assign : Bool → Client → Client} {s : Server} :
    (∃ t, (updateWants this item key assign).run s = .ok () t) ↔
      Finds item key fun value => value.isBool = true ∨ value.isFloat = true := by
  constructor
  · rintro ⟨t, ht⟩
    obtain ⟨found, hfound, ht⟩ := run_ofExcept_bind_eq_ok.mp ht
    refine ⟨found, hfound, ?_⟩
    rintro value ⟨⟩
    obtain ⟨isCtrl, hctrl, ht⟩ := run_ofExcept_bind_eq_ok.mp ht
    cases value with
    | ctrl n =>
        cases hctrl
        obtain ⟨wants, hwants, _⟩ := run_ofExcept_bind_eq_ok.mp ht
        exact .inl (Item.getBool_eq_ok_iff.mp ⟨wants, hwants⟩)
    | float width v => exact .inr rfl
    | _ => cases hctrl
  · rintro ⟨found, hfound, hvalue⟩
    cases found with
    | none => exact ⟨s, run_ofExcept_bind_eq_ok.mpr ⟨none, hfound, rfl⟩⟩
    | some value =>
        rcases hvalue value rfl with hb | hf
        · obtain ⟨wants, hwants⟩ := Item.getBool_eq_ok_iff.mpr hb
          cases value with
          | ctrl n =>
              exact ⟨_, run_ofExcept_bind_eq_ok.mpr ⟨_, hfound,
                run_ofExcept_bind_eq_ok.mpr ⟨true, rfl,
                  run_ofExcept_bind_eq_ok.mpr ⟨wants, hwants, rfl⟩⟩⟩⟩
          | _ => cases hb
        · cases value with
          | float width v =>
              exact ⟨_, run_ofExcept_bind_eq_ok.mpr ⟨_, hfound,
                run_ofExcept_bind_eq_ok.mpr ⟨false, rfl, rfl⟩⟩⟩
          | _ => cases hf

theorem updateBroadcastConfig_returns_iff {this : Nat} {item : Item} {s : Server} :
    (∃ t, (updateBroadcastConfig this item).run s = .ok () t) ↔ Configures item := by
  constructor
  · rintro ⟨t, ht⟩
    obtain ⟨_, u, htouch, ht⟩ := run_bind_eq_ok.mp ht
    obtain ⟨_, v, hbutton, hencoder⟩ := run_bind_eq_ok.mp ht
    intro key hkey
    simp only [List.mem_cons, List.not_mem_nil, or_false] at hkey
    rcases hkey with rfl | rfl | rfl
    · exact updateWants_returns_iff.mp ⟨u, htouch⟩
    · exact updateWants_returns_iff.mp ⟨v, hbutton⟩
    · exact updateWants_returns_iff.mp ⟨t, hencoder⟩
  · intro h
    obtain ⟨u, hu⟩ := updateWants_returns_iff.mpr (h "touch" (by simp))
    obtain ⟨v, hv⟩ := updateWants_returns_iff.mpr (h "button" (by simp))
    obtain ⟨t, ht⟩ := updateWants_returns_iff.mpr (h "encoder" (by simp))
    exact ⟨t, run_bind_eq_ok.mpr ⟨(), u, hu, run_bind_eq_ok.mpr ⟨(), v, hv, ht⟩⟩⟩

theorem dispatchPacket_returns_iff {table : IndicatorTable} {this : Nat} {hdr : Header}
    {item : Item} {s : Server} :
    (∃ t, (dispatchPacket table this hdr item).run s = .ok () t) ↔
      Served s.ledManager hdr.endpoint item := by
  unfold dispatchPacket Served
  by_cases hconfig : hdr.endpoint = kRpcEndpointBroadcastConfig
  · rw [if_pos hconfig, updateBroadcastConfig_returns_iff, hconfig]
    simp [kRpcEndpointNoOp, kRpcEndpointBroadcastConfig, kRpcEndpointIndicator]
  · rw [if_neg hconfig]
    by_cases hindicator : hdr.endpoint = kRpcEndpointIndicator
    · rw [if_pos hindicator, hindicator, ← updateIndicators_returns_iff table]
      simp [onLedManager_run_eq_ok_iff, kRpcEndpointNoOp, kRpcEndpointBroadcastConfig,
        kRpcEndpointIndicator]
    · rw [if_neg hindicator]
      by_cases hnop : hdr.endpoint = kRpcEndpointNoOp
      · rw [if_pos hnop]
        exact ⟨fun _ => .inl hnop, fun _ => ⟨s, rfl⟩⟩
      · rw [if_neg hnop]
        simp [hconfig, hindicator, hnop]

theorem readCallback_returns_iff {cbor : Libcbor} {table : IndicatorTable} {this : Nat}
    {pending : List Byte} {drains : Bool} {s : Server} :
    (∃ t, (readCallback cbor table this pending drains).run s = .ok () t) ↔
      Acceptable cbor s.ledManager pending drains := by
  simp only [readCallback_run]
  cases drains with
  | false => exact ⟨fun ⟨_, h⟩ => (nomatch h), fun ⟨h, _, _⟩ => (nomatch h)⟩
  | true =>
      constructor
      · rintro ⟨t, ht⟩
        obtain ⟨hdr, item, hreceive, hdispatch⟩ := bevRead_run_eq_ok_iff.mp ht
        obtain ⟨hframed, rfl, hload⟩ := receive_eq_ok_iff.mp hreceive
        have hserved := dispatchPacket_returns_iff.mp ⟨t, hdispatch⟩
        rw [ledManager_modifyClient] at hserved
        exact ⟨rfl, hframed, item, hload, hserved⟩
      · rintro ⟨_, hframed, item, hload, hserved⟩
        rw [← ledManager_modifyClient s this fun client =>
          { client with receiveBuf := pending }] at hserved
        obtain ⟨t, ht⟩ := dispatchPacket_returns_iff.mpr hserved
        exact ⟨t, bevRead_run_eq_ok_iff.mpr
          ⟨_, _, receive_eq_ok_iff.mpr ⟨hframed, rfl, hload⟩, ht⟩⟩

theorem readEvent_returns_iff {cbor : Libcbor} {table : IndicatorTable} {this : Nat}
    {pending : List Byte} {drains : Bool} {s : Server} :
    (∃ t, (readEvent cbor table this pending drains).run s = .ok () t) ↔
      pending.length < headerSize ∨ Acceptable cbor s.ledManager pending drains := by
  rcases Nat.lt_or_ge pending.length headerSize with hshort | hsize
  · rw [readEvent_of_short cbor table this drains hshort]
    exact iff_of_true ⟨s, rfl⟩ (.inl hshort)
  · rw [readEvent_of_complete cbor table this drains hsize, readCallback_returns_iff]
    exact (or_iff_right (Nat.not_lt.mpr hsize)).symm

/-- Handling a message is isolated if and only if it is too short to be handled,
or acceptable. -/
theorem isolated_iff_acceptable (cbor : Libcbor) (table : IndicatorTable) (s : Server)
    (this : Nat) (pending : List Byte) (drains : Bool) :
    Isolated cbor table s this pending drains ↔
      pending.length < headerSize ∨ Acceptable cbor s.ledManager pending drains := by
  rw [← readEvent_returns_iff]
  constructor
  · rintro ⟨t, ht, _⟩
    exact ⟨t, ht⟩
  · rintro ⟨t, ht⟩
    exact ⟨t, ht, (keeps_readEvent _ cbor table pending drains).of_ok ⟨rfl, fun _ _ => rfl⟩ ht⟩

/-- Two clients that want nothing. -/
def twoClients : Server :=
  ⟨AList.insert 5 ⟨[], [], [], false, false, false⟩
    (AList.insert 4 ⟨[], [], [], false, false, false⟩ ∅), ⟨[], [], .nearest⟩⟩

/-- A header of another version ends the event loop for both of them. -/
theorem not_isolated_other_version :
    ¬ Isolated (.ofTable [] (fun _ => []) (by decide)) .listed twoClients 4
      [0x00, 0x02, 0x08, 0x00, 0x00, 0x01, 0x00, 0x00] true := by
  rintro ⟨t, ht, _⟩
  rcases readEvent_returns_iff.mp ⟨t, ht⟩ with hshort | h
  · exact absurd hshort (by decide)
  · exact absurd h.framed.version (by decide)

end Rpc
