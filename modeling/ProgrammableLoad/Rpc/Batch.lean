/-
# `Rpc.Batch` — many indicator changes in one packet

The GUI can send a list of changes with one call, or each change with a call
of its own.  Sent one by one the last change to an indicator wins.  Of the
entries of one map the first wins, because pinballd looks for the first pair
with a key; and the map may be too large for a packet, which it always gets
into when it holds one change.  `batchAgrees_iff` says for which lists the two
ways leave the same LED state.
-/
import ProgrammableLoad.Led.Registers
import ProgrammableLoad.Rpc.Agreement
import ProgrammableLoad.Rpc.PinballClient

namespace Rpc

open Cpp Cbor Led Program LastWriter

/-! ## The property -/

/-- pinballd after it read the packets from a client, one after the other;
nothing when an exception or worse has ended it. -/
def serve (cbor : Libcbor) (table : IndicatorTable) (this : Nat) :
    List (List Byte) → Server → Option Server
  | [], s => some s
  | buf :: bufs, s =>
      match (readCallback cbor table this buf true).run s with
      | .ok _ t => serve cbor table this bufs t
      | .error _ _ => none

/-- The packets a client's calls write. -/
def sent (calls : EStateM Fault ClientBase Unit) (nextTag : Byte) : List (List Byte) :=
  match calls.run ⟨nextTag, [], []⟩ with
  | .ok _ c => c.written
  | .error _ c => c.written

/-- The registers of the LED controllers. -/
def ledState (s : Option Server) : Option (Nat → Register → Option Byte) :=
  s.map fun s => s.ledManager.reg

/-- From every LED state, on a bus that answers and over a socket that takes
the packets, the changes in one packet lead to the same LED state as the same
changes one by one. -/
def BatchAgrees (rounding : Rounding) (cbor : Libcbor) (changes : List IndicatorChange) : Prop :=
  ∀ (table : IndicatorTable) (this : Nat) (nextTag : Byte) (s : Server),
    s.ledManager.bus = [] → s.ledManager.rounding = rounding →
    ledState (serve cbor table this
        (sent (setIndicatorState cbor (fun _ => true) changes) nextTag) s)
      = ledState (serve cbor table this
        (sent (forM changes (setSingleIndicatorState cbor fun _ => true)) nextTag) s)

/-! ## The size of the map -/

/-- The bytes of the head of a data item with a count or a length. -/
def headSize (n : Nat) : Nat :=
  if n < 24 then 1
  else if n < 256 then 2
  else if n < 65536 then 3
  else if n < 4294967296 then 5
  else 9

def IndicatorValue.size : IndicatorValue → Nat
  | .bool _ => 1
  | .double _ => 9
  | .color _ => 16

/-- The bytes of the pair of a change. -/
def pairSize (change : IndicatorChange) : Nat :=
  headSize (kIndicatorNames change.1).length + (kIndicatorNames change.1).length
    + change.2.size

/-- The bytes of the map of a list of changes. -/
def mapSize (changes : List IndicatorChange) : Nat :=
  headSize changes.length + (changes.map pairSize).sum

theorem mapSize_single (change : IndicatorChange) : mapSize [change] ≤ maxPayload := by
  obtain ⟨i, value⟩ := change
  have hname : headSize (kIndicatorNames i).length + (kIndicatorNames i).length ≤ 12 := by
    cases i <;> decide
  have hvalue : value.size ≤ 16 := by
    cases value <;> simp [IndicatorValue.size]
  have hone : headSize [(i, value)].length = 1 := rfl
  simp only [mapSize, hone, pairSize, maxPayload, List.map_cons, List.map_nil, List.sum_cons,
    List.sum_nil]
  omega

/-- The library encodes the map of the changes faithfully and in the fewest
bytes. -/
structure Faithful (cbor : Libcbor) (changes : List IndicatorChange) : Prop where
  encodes : cbor.Encodes (cbor.serialize (encodeChanges changes)) (encodeChanges changes)
  length_eq : (cbor.serialize (encodeChanges changes)).length = mapSize changes

/-! ## The condition -/

/-- The value is a color. -/
def IndicatorValue.isColor : IndicatorValue → Bool
  | .color _ => true
  | _ => false

/-- The map fits a packet, and of the changes of each indicator the first and
the last give its channels the same duty cycles, and the first is a color if
any of them is. -/
structure BatchSafe (rounding : Rounding) (changes : List IndicatorChange) : Prop where
  fits : mapSize changes ≤ maxPayload
  same : ∀ i, ∀ k < 3, (firstOf i changes).map (fun value => value.setting.duty rounding k)
    = (lastOf i changes).map fun value => value.setting.duty rounding k
  colors : ∀ i first, firstOf i changes = some first →
    ∀ value, (i, value) ∈ changes → value.isColor = true → first.isColor = true

/-! ## Serving a packet -/

section Serve

variable {cbor : Libcbor} {table : IndicatorTable} {this : Nat} {changes : List IndicatorChange}
  {tag : Byte} {s t : Server} {led : LedManager}

/-- The packet of a list of changes. -/
def changesPacket (cbor : Libcbor) (tag : Byte) (changes : List IndicatorChange) : List Byte :=
  packet kRpcEndpointIndicator tag (cbor.serialize (encodeChanges changes))

/-- pinballd gets through the packet if and only if the map fits and each of
the settings it finds can be made. -/
theorem readCallback_changes_iff (hf : Faithful cbor changes) (hbus : s.ledManager.bus = []) :
    (∃ t, (readCallback cbor table this (changesPacket cbor tag changes) true).run s = .ok () t ∧
        t.ledManager = led) ↔
      mapSize changes ≤ maxPayload ∧
        (∀ x ∈ settings table changes, s.ledManager.Takes x.1 x.2) ∧
        led = s.ledManager.paintedAll (settings table changes) := by
  have hep : (Header.read (changesPacket cbor tag changes)).endpoint = kRpcEndpointIndicator :=
    endpoint_packet _ _ _
  have hdispatch : ∀ u v : Server, u.ledManager = s.ledManager →
      ((dispatchPacket table this (Header.read (changesPacket cbor tag changes))
        (encodeChanges changes)).run u = .ok () v ↔
        ∃ led, (∀ x ∈ settings table changes, s.ledManager.Takes x.1 x.2) ∧
          led = s.ledManager.paintedAll (settings table changes) ∧
          v = { u with ledManager := led }) := by
    intro u v hu
    rw [dispatchPacket_indicator hep, onLedManager_run_eq_ok_iff, updateIndicators_encodeChanges,
      hu]
    simp only [LedManager.forM_set_run_eq_ok_iff hbus, and_assoc]
  simp only [readCallback_run, bevRead_run_eq_ok_iff]
  constructor
  · rintro ⟨t, ⟨hdr, item, hreceive, hrun⟩, rfl⟩
    obtain ⟨hle, rfl, hload⟩ := receive_packet_iff.mp hreceive
    obtain ⟨hlen, rfl⟩ := hf.encodes.load_take_iff.mp hload
    have hfits := claims_all_iff.mp ⟨hle, hlen⟩
    rw [hf.length_eq] at hfits
    obtain ⟨led, htakes, hled, rfl⟩ :=
      (hdispatch _ _ (ledManager_modifyClient _ _ _)).mp hrun
    exact ⟨hfits, htakes, hled⟩
  · rintro ⟨hfits, htakes, hled⟩
    rw [← hf.length_eq] at hfits
    obtain ⟨hle, hlen⟩ := claims_all_iff.mpr hfits
    have hreceive : Client.receive cbor (changesPacket cbor tag changes)
        = .ok (Header.read (changesPacket cbor tag changes), encodeChanges changes) :=
      receive_packet_iff.mpr ⟨hle, rfl, hf.encodes.load_take_iff.mpr ⟨hlen, rfl⟩⟩
    have hrun := (hdispatch _ _ (ledManager_modifyClient s this fun client =>
      { client with receiveBuf := changesPacket cbor tag changes })).mpr
        ⟨led, htakes, hled, rfl⟩
    exact ⟨_, ⟨_, _, hreceive, hrun⟩, rfl⟩

/-- The packet of a single change always fits. -/
theorem readCallback_change_iff {change : IndicatorChange} (hf : Faithful cbor [change])
    (hbus : s.ledManager.bus = []) :
    (∃ t, (readCallback cbor table this (changesPacket cbor tag [change]) true).run s
          = .ok () t ∧ t.ledManager = led) ↔
      s.ledManager.Takes change.1 change.2.setting ∧
        led = s.ledManager.painted change.1 change.2.setting := by
  rw [readCallback_changes_iff hf hbus, settings_single]
  constructor
  · rintro ⟨_, htakes, hled⟩
    exact ⟨htakes _ List.mem_cons_self, hled⟩
  · rintro ⟨htakes, hled⟩
    refine ⟨mapSize_single change, ?_, hled⟩
    intro x hx
    rw [List.mem_singleton.mp hx]
    exact htakes

/-- pinballd gets through the packets, and ends with these LED controllers. -/
def Ends (cbor : Libcbor) (table : IndicatorTable) (this : Nat) (bufs : List (List Byte))
    (s : Server) (led : LedManager) : Prop :=
  ∃ t, serve cbor table this bufs s = some t ∧ t.ledManager = led

theorem ends_nil_iff : Ends cbor table this [] s led ↔ s.ledManager = led := by
  simp [Ends, serve]

theorem ends_cons_iff {buf : List Byte} {bufs : List (List Byte)} :
    Ends cbor table this (buf :: bufs) s led ↔
      ∃ t, (readCallback cbor table this buf true).run s = .ok () t ∧
        Ends cbor table this bufs t led := by
  unfold Ends
  rw [serve]
  cases (readCallback cbor table this buf true).run s with
  | ok _ t => simp
  | error e t => simp

/-- The packets of changes sent one by one. -/
def singlePackets (cbor : Libcbor) : Byte → List IndicatorChange → List (List Byte)
  | _, [] => []
  | nextTag, change :: changes =>
      changesPacket cbor (ClientBase.followingTag nextTag) [change]
        :: singlePackets cbor (ClientBase.followingTag nextTag) changes

theorem sent_batch (hne : changes ≠ []) (nextTag : Byte) :
    sent (setIndicatorState cbor (fun _ => true) changes) nextTag
      = [changesPacket cbor (ClientBase.followingTag nextTag) changes] := by
  cases changes with
  | nil => exact absurd rfl hne
  | cons change changes => rfl

theorem sent_singles (nextTag : Byte) :
    sent (forM changes (setSingleIndicatorState cbor fun _ => true)) nextTag
      = singlePackets cbor nextTag changes := by
  have hrun : ∀ c : ClientBase, ∃ c',
      (forM changes (setSingleIndicatorState cbor fun _ => true)).run c = .ok () c' ∧
        c'.written = c.written ++ singlePackets cbor c.nextTag changes := by
    induction changes with
    | nil => exact fun c => ⟨c, rfl, (List.append_nil _).symm⟩
    | cons change changes ih =>
        intro c
        let sentOne : ClientBase := { c with
          nextTag := ClientBase.followingTag c.nextTag
          written := c.written
            ++ [changesPacket cbor (ClientBase.followingTag c.nextTag) [change]] }
        have hone : (setSingleIndicatorState cbor (fun _ => true) change).run c
            = .ok () sentOne := rfl
        obtain ⟨c', hc', hwritten⟩ := ih sentOne
        refine ⟨c', ?_, ?_⟩
        · rw [List.forM_cons]
          exact run_bind_eq_ok.mpr ⟨(), sentOne, hone, hc'⟩
        · rw [hwritten, singlePackets, List.append_assoc]
          rfl
  obtain ⟨c', hc', hwritten⟩ := hrun ⟨nextTag, [], []⟩
  rw [sent, hc']
  exact hwritten

/-- Sent in one packet, the settings of the table's order are made. -/
theorem ends_batch_iff (hf : Faithful cbor changes) (hbus : s.ledManager.bus = []) :
    Ends cbor table this [changesPacket cbor tag changes] s led ↔
      mapSize changes ≤ maxPayload ∧
        (∀ x ∈ settings table changes, s.ledManager.Takes x.1 x.2) ∧
        led = s.ledManager.paintedAll (settings table changes) := by
  rw [ends_cons_iff]
  simp only [ends_nil_iff]
  exact readCallback_changes_iff hf hbus

/-- Sent one by one, the changes are made in their order. -/
theorem ends_singles_iff (hf : ∀ change ∈ changes, Faithful cbor [change])
    (hbus : s.ledManager.bus = []) {nextTag : Byte} :
    Ends cbor table this (singlePackets cbor nextTag changes) s led ↔
      (∀ change ∈ changes, s.ledManager.Takes change.1 change.2.setting) ∧
        led = s.ledManager.paintedAll
          (changes.map fun change => (change.1, change.2.setting)) := by
  induction changes generalizing s nextTag with
  | nil =>
      rw [singlePackets, ends_nil_iff]
      simp [LedManager.paintedAll, eq_comm]
  | cons change changes ih =>
      have hone := hf change List.mem_cons_self
      have hrest := fun c hc => hf c (List.mem_cons_of_mem change hc)
      -- after a change that was made, the bus and the mapping are as before
      have hnext : s.ledManager.Takes change.1 change.2.setting → ∀ u : Server,
          u.ledManager = s.ledManager.painted change.1 change.2.setting →
          u.ledManager.bus = [] ∧ ∀ c : IndicatorChange,
            u.ledManager.Takes c.1 c.2.setting ↔ s.ledManager.Takes c.1 c.2.setting := by
        intro htakes u hu
        refine ⟨by simp [hu, LedManager.bus_painted htakes, hbus], ?_⟩
        intro c
        rw [hu]
        exact LedManager.takes_congr (LedManager.handler_painted _ _)
      rw [singlePackets, ends_cons_iff, List.forall_mem_cons]
      constructor
      · rintro ⟨u, hrun, hends⟩
        obtain ⟨htakes, hu⟩ := (readCallback_change_iff hone hbus).mp ⟨u, hrun, rfl⟩
        obtain ⟨hbus', hsame⟩ := hnext htakes u hu
        obtain ⟨hall, rfl⟩ := (ih hrest hbus').mp hends
        refine ⟨⟨htakes, fun c hc => (hsame c).mp (hall c hc)⟩, ?_⟩
        rw [hu]
        rfl
      · rintro ⟨⟨htakes, hall⟩, hled⟩
        obtain ⟨u, hrun, hu⟩ := (readCallback_change_iff hone hbus).mpr ⟨htakes, rfl⟩
        obtain ⟨hbus', hsame⟩ := hnext htakes u hu
        refine ⟨u, hrun, (ih hrest hbus').mpr ⟨fun c hc => (hsame c).mpr (hall c hc), ?_⟩⟩
        rw [hled, hu]
        rfl

end Serve

/-! ## The two ways compared -/

section Compare

variable {rounding : Rounding} {cbor : Libcbor} {table : IndicatorTable} {this : Nat}
  {changes : List IndicatorChange} {s : Server} {led : LedManager} {bufs : List (List Byte)}

theorem ledState_of_ends (h : Ends cbor table this bufs s led) :
    ledState (serve cbor table this bufs s) = some led.reg := by
  obtain ⟨t, ht, rfl⟩ := h
  rw [ht]
  rfl

theorem ledState_of_not_ends (h : ∀ led, ¬ Ends cbor table this bufs s led) :
    ledState (serve cbor table this bufs s) = none := by
  cases hs : serve cbor table this bufs s with
  | none => rfl
  | some t => exact absurd ⟨t, hs, rfl⟩ (h t.ledManager)

theorem takes_setting_iff {led : LedManager} {i : Indicator} {value : IndicatorValue} :
    led.Takes i value.setting ↔
      (value.isColor = true → ∀ this, led.handler i ≠ some (this, [])) := by
  cases value with
  | bool value => exact ⟨fun _ h => (nomatch h), fun _ => LedManager.takes_brightness _⟩
  | double value => exact ⟨fun _ h => (nomatch h), fun _ => LedManager.takes_brightness _⟩
  | color value =>
      rw [show (IndicatorValue.color value).setting = .color value from rfl,
        LedManager.takes_color_iff]
      exact ⟨fun h _ => h, fun h => h rfl⟩

/-- Of a safe list every change can be made if every first change can. -/
theorem BatchSafe.takes_iff (h : BatchSafe rounding changes) {led : LedManager} :
    (∀ x ∈ settings table changes, led.Takes x.1 x.2) ↔
      ∀ change ∈ changes, led.Takes change.1 change.2.setting := by
  constructor
  · rintro hset ⟨i, value⟩ hmem
    obtain ⟨first, hfirst⟩ := exists_firstOf hmem
    have htakes := hset (i, first.setting) (mem_settings_iff.mpr ⟨first, hfirst, rfl⟩)
    exact takes_setting_iff.mpr fun hcolor =>
      takes_setting_iff.mp htakes (h.colors i first hfirst value hmem hcolor)
  · rintro hall ⟨i, setting⟩ hmem
    obtain ⟨value, hvalue, rfl⟩ := mem_settings_iff.mp hmem
    exact hall (i, value) (mem_of_firstOf hvalue)

theorem BatchSafe.agrees (h : BatchSafe rounding changes) (hne : changes ≠ [])
    (hbatch : Faithful cbor changes) (hsingle : ∀ change ∈ changes, Faithful cbor [change]) :
    BatchAgrees rounding cbor changes := by
  intro table this nextTag s hbus hrounding
  rw [sent_batch hne, sent_singles]
  by_cases htakes : ∀ change ∈ changes, s.ledManager.Takes change.1 change.2.setting
  · have hset : ∀ x ∈ settings table changes, s.ledManager.Takes x.1 x.2 :=
      h.takes_iff.mpr htakes
    rw [ledState_of_ends ((ends_batch_iff hbatch hbus).mpr ⟨h.fits, hset, rfl⟩),
      ledState_of_ends ((ends_singles_iff hsingle hbus).mpr ⟨htakes, rfl⟩)]
    refine congrArg some (LedManager.reg_paintedAll_congr hset ?_ ?_)
    · intro x hx
      obtain ⟨change, hchange, rfl⟩ := List.mem_map.mp hx
      exact htakes change hchange
    · intro i k hk
      rw [lastOf_settings, lastOf_map, Option.map_map, Option.map_map, hrounding]
      exact h.same i k hk
  · rw [ledState_of_not_ends, ledState_of_not_ends]
    · intro led hends
      exact htakes ((ends_singles_iff hsingle hbus).mp hends).1
    · intro led hends
      exact htakes (h.takes_iff.mp ((ends_batch_iff hbatch hbus).mp hends).2.1)

end Compare

/-! ## States that tell the two ways apart -/

section Probe

variable {rounding : Rounding} {cbor : Libcbor} {changes : List IndicatorChange} {i : Indicator}
  {n : Nat}

/-- One indicator on the first channels of a controller. -/
def onlyIndicator (i : Indicator) (n : Nat) (hn : n ≤ 3) : LedMap where
  indices which := if which = i then some (List.range n) else none
  index_lt := by
    intro which l h channel hc
    split at h
    · cases h
      have hlt := List.mem_range.mp hc
      unfold kNumChannels
      omega
    · cases h
  length_le := by
    intro which l h
    split at h
    · cases h
      rw [List.length_range]
      exact hn
    · cases h
  nodup := by
    intro which l h
    split at h
    · cases h
      exact List.nodup_range
    · cases h
  disjoint := by
    intro which which' l l' hne h h'
    split at h
    · split at h'
      · rename_i hw hw'
        exact absurd (hw.trans hw'.symm) hne
      · cases h'
    · cases h

/-- A server with a single controller, all of it dark. -/
def probe (rounding : Rounding) (i : Indicator) (n : Nat) (hn : n ≤ 3) : Server :=
  ⟨∅, ⟨[some ⟨onlyIndicator i n hn, fun _ => 0⟩], [], rounding⟩⟩

theorem handler_probe (hn : n ≤ 3) (which : Indicator) :
    (probe rounding i n hn).ledManager.handler which
      = if which = i then some (0, List.range n) else none := by
  by_cases h : which = i
  · rw [if_pos h]
    simp [probe, LedManager.handler, LedManager.indices, onlyIndicator, h]
  · rw [if_neg h]
    simp [probe, LedManager.handler, LedManager.indices, onlyIndicator, h]

/-- What the agreement says of the packets the two ways send. -/
theorem BatchAgrees.ledState_eq (h : BatchAgrees rounding cbor changes) (hne : changes ≠ [])
    {s : Server} (hbus : s.ledManager.bus = []) (hrounding : s.ledManager.rounding = rounding) :
    ledState (serve cbor .listed 0
        [changesPacket cbor (ClientBase.followingTag 0) changes] s)
      = ledState (serve cbor .listed 0 (singlePackets cbor 0 changes) s) := by
  have hagree := h .listed 0 0 s hbus hrounding
  rw [sent_batch hne, sent_singles] at hagree
  exact hagree

/-- A map that does not fit has no effect but to end pinballd. -/
theorem BatchAgrees.fits (h : BatchAgrees rounding cbor changes) (hne : changes ≠ [])
    (hbatch : Faithful cbor changes) (hsingle : ∀ change ∈ changes, Faithful cbor [change]) :
    mapSize changes ≤ maxPayload := by
  let s : Server := ⟨∅, ⟨[], [], rounding⟩⟩
  by_contra hfits
  have hagree := h.ledState_eq hne (s := s) rfl rfl
  have htakes : ∀ change ∈ changes, s.ledManager.Takes change.1 change.2.setting :=
    fun change _ => takes_setting_iff.mpr fun _ _ hnil => (nomatch hnil)
  rw [ledState_of_ends ((ends_singles_iff hsingle rfl).mpr ⟨htakes, rfl⟩),
    ledState_of_not_ends fun led hends =>
      hfits ((ends_batch_iff hbatch rfl).mp hends).1] at hagree
  cases hagree

/-- An indicator with three channels takes what it is set to. -/
theorem takes_probe (i j : Indicator) (value : IndicatorValue) :
    (probe rounding i 3 (Nat.le_refl 3)).ledManager.Takes j value.setting := by
  refine takes_setting_iff.mpr ?_
  intro _ this hnil
  rw [handler_probe] at hnil
  split at hnil
  · cases hnil
  · cases hnil

theorem drives_probe (i : Indicator) {k : Nat} (hk : k < 3) :
    (probe rounding i 3 (Nat.le_refl 3)).ledManager.Drives i k 0 (pwm k) := by
  refine ⟨List.range 3, k, ?_, ?_, rfl⟩
  · rw [handler_probe, if_pos rfl]
  · rw [List.getElem?_range hk]

/-- The duty cycles of an indicator with three channels show its first and its
last change. -/
theorem BatchAgrees.same (h : BatchAgrees rounding cbor changes) (hne : changes ≠ [])
    (hbatch : Faithful cbor changes) (hsingle : ∀ change ∈ changes, Faithful cbor [change])
    (i : Indicator) (k : Nat) (hk : k < 3) :
    (firstOf i changes).map (fun value => value.setting.duty rounding k)
      = (lastOf i changes).map fun value => value.setting.duty rounding k := by
  let s := probe rounding i 3 (Nat.le_refl 3)
  have hfits := h.fits hne hbatch hsingle
  have hagree := h.ledState_eq hne (s := s) rfl rfl
  have hset : ∀ x ∈ settings .listed changes, s.ledManager.Takes x.1 x.2 := by
    rintro ⟨j, setting⟩ hmem
    obtain ⟨value, _, rfl⟩ := mem_settings_iff.mp hmem
    exact takes_probe i j value
  have hall : ∀ x ∈ changes.map (fun change => (change.1, change.2.setting)),
      s.ledManager.Takes x.1 x.2 := by
    intro x hx
    obtain ⟨change, _, rfl⟩ := List.mem_map.mp hx
    exact takes_probe i change.1 change.2
  have hdrives : s.ledManager.Drives i k 0 (pwm k) := drives_probe i hk
  rw [ledState_of_ends ((ends_batch_iff hbatch rfl).mpr ⟨hfits, hset, rfl⟩),
    ledState_of_ends ((ends_singles_iff hsingle rfl).mpr
      ⟨fun change _ => takes_probe i change.1 change.2, rfl⟩)] at hagree
  have hreg := congrFun (congrFun (Option.some.inj hagree) 0) (pwm k)
  rw [LedManager.reg_paintedAll hset hdrives, LedManager.reg_paintedAll hall hdrives,
    lastOf_settings, lastOf_map, Option.map_map, Option.map_map] at hreg
  cases hfirst : firstOf i changes with
  | none =>
      cases hlast : lastOf i changes with
      | none => rfl
      | some last =>
          obtain ⟨first, hsome⟩ := exists_firstOf (mem_of_lastOf hlast)
          rw [hfirst] at hsome
          cases hsome
  | some first =>
      obtain ⟨last, hlast⟩ := exists_lastOf (mem_of_firstOf hfirst)
      rw [hfirst, hlast] at hreg
      rw [hlast]
      exact congrArg some (Option.some.inj hreg)

/-- An indicator without channels shows whether a color is among its changes,
and whether the first one is a color. -/
theorem BatchAgrees.colors (h : BatchAgrees rounding cbor changes) (hne : changes ≠ [])
    (hbatch : Faithful cbor changes) (hsingle : ∀ change ∈ changes, Faithful cbor [change])
    {i : Indicator} {first value : IndicatorValue} (hfirst : firstOf i changes = some first)
    (hmem : (i, value) ∈ changes) (hcolor : value.isColor = true) : first.isColor = true := by
  let s := probe rounding i 0 (Nat.zero_le 3)
  have hfits := h.fits hne hbatch hsingle
  have hagree := h.ledState_eq hne (s := s) rfl rfl
  have hhandler : s.ledManager.handler i = some (0, []) := by
    rw [handler_probe, if_pos rfl]
    rfl
  have hsingles : ∀ led, ¬ Ends cbor .listed 0 (singlePackets cbor 0 changes) s led := by
    intro led hends
    have htakes := ((ends_singles_iff hsingle rfl).mp hends).1 _ hmem
    exact takes_setting_iff.mp htakes hcolor 0 hhandler
  rw [ledState_of_not_ends hsingles] at hagree
  by_contra hfirstColor
  have hset : ∀ x ∈ settings .listed changes, s.ledManager.Takes x.1 x.2 := by
    rintro ⟨j, setting⟩ hx
    obtain ⟨w, hw, rfl⟩ := mem_settings_iff.mp hx
    refine takes_setting_iff.mpr ?_
    intro hwcolor this hnil
    rw [handler_probe] at hnil
    split at hnil
    · rename_i hj
      subst hj
      rw [hfirst] at hw
      cases hw
      exact hfirstColor hwcolor
    · cases hnil
  rw [ledState_of_ends ((ends_batch_iff hbatch rfl).mpr ⟨hfits, hset, rfl⟩)] at hagree
  cases hagree

end Probe

/-- A list of changes has the same effect in one packet as one by one if and
only if it is empty or safe. -/
theorem batchAgrees_iff {rounding : Rounding} {cbor : Libcbor} {changes : List IndicatorChange}
    (hbatch : Faithful cbor changes) (hsingle : ∀ change ∈ changes, Faithful cbor [change]) :
    BatchAgrees rounding cbor changes ↔ changes = [] ∨ BatchSafe rounding changes := by
  by_cases hne : changes = []
  · -- no change: neither way sends a packet
    subst hne
    exact ⟨fun _ => .inl rfl, fun _ table this nextTag s hbus hrounding => rfl⟩
  · constructor
    · intro h
      refine .inr ⟨h.fits hne hbatch hsingle, h.same hne hbatch hsingle, ?_⟩
      intro i first hfirst value hmem hcolor
      exact h.colors hne hbatch hsingle hfirst hmem hcolor
    · rintro (hnil | h)
      · exact absurd hnil hne
      · exact h.agrees hne hbatch hsingle

/-- Two changes of one indicator. -/
def onAndOff : List IndicatorChange := [(.btnMenu, .bool true), (.btnMenu, .bool false)]

/-- Three changes of two indicators, of which one is switched on twice. -/
def onAndOn : List IndicatorChange :=
  [(.btnMenu, .bool true), (.error, .bool false), (.btnMenu, .bool true)]

/-- The encoding of a map from short texts to simple values. -/
def serializeFlags : Item → List Byte
  | .map true pairs => BitVec.ofNat 8 (0xa0 + pairs.length) :: pairs.flatMap fun pair =>
      match pair with
      | (.text key, .ctrl value) =>
          BitVec.ofNat 8 (0x60 + key.length) :: key ++ [BitVec.ofNat 8 (0xe0 + value)]
      | _ => []
  | _ => []

/-- Lists of changes, and each of the changes by itself. -/
def flagChanges : List (List IndicatorChange) :=
  [onAndOff, onAndOn, [(.btnMenu, .bool true)], [(.btnMenu, .bool false)],
    [(.error, .bool false)]]

/-- A library that knows the maps of these changes. -/
def libcborFlags : Libcbor :=
  .ofTable (flagChanges.map fun changes =>
      (serializeFlags (encodeChanges changes), encodeChanges changes))
    serializeFlags (by decide)

theorem faithful_flags : ∀ changes ∈ flagChanges, Faithful libcborFlags changes := by
  intro changes hmem
  simp only [flagChanges, List.mem_cons, List.not_mem_nil, or_false] at hmem
  rcases hmem with rfl | rfl | rfl | rfl | rfl <;>
    exact ⟨Libcbor.ofTable_encodes rfl (by decide), by decide⟩

/-- An indicator that is switched on twice is on either way. -/
theorem batchAgrees_onAndOn : BatchAgrees .nearest libcborFlags onAndOn := by
  have hsingle : ∀ change ∈ onAndOn, Faithful libcborFlags [change] := by
    intro change hchange
    simp only [onAndOn, List.mem_cons, List.not_mem_nil, or_false] at hchange
    rcases hchange with rfl | rfl | rfl <;> exact faithful_flags _ (by simp [flagChanges])
  refine (batchAgrees_iff (faithful_flags _ (by simp [flagChanges])) hsingle).mpr
    (.inr ⟨by decide, ?_, ?_⟩)
  · intro i k _
    cases i <;> rfl
  · intro i first _ value hmem hcolor
    simp only [onAndOn, List.mem_cons, Prod.mk.injEq, List.not_mem_nil, or_false] at hmem
    rcases hmem with ⟨_, rfl⟩ | ⟨_, rfl⟩ | ⟨_, rfl⟩ <;> cases hcolor

/-- Switched on and off, an indicator is off; in one packet it is on. -/
theorem not_batchAgrees_onAndOff : ¬ BatchAgrees .nearest libcborFlags onAndOff := by
  intro h
  have hsingle : ∀ change ∈ onAndOff, Faithful libcborFlags [change] := by
    intro change hchange
    simp only [onAndOff, List.mem_cons, List.not_mem_nil, or_false] at hchange
    rcases hchange with rfl | rfl
    · exact faithful_flags _ (by simp [flagChanges])
    · exact faithful_flags _ (by simp [flagChanges])
  have hsame := h.same (by simp [onAndOff]) (faithful_flags _ (by simp [flagChanges])) hsingle
    .btnMenu 0 (by decide)
  simp [onAndOff, firstOf, lastOf, IndicatorValue.setting, Setting.duty] at hsame

end Rpc
