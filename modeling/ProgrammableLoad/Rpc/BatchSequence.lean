/-
# `Rpc.BatchSequence` — one packet of indicator changes after the other

A client sends several lists of changes, each in a packet of its own, and
pinballd reads one packet at a time.  If every list fits a packet and every
change can be made, each register of an indicator holds in the end what the
last change to the indicator gives it, `shows_ends`.  This is for lists that
change an indicator at most once each; what happens to others is the matter of
`Rpc.Batch`.
-/
import ProgrammableLoad.Rpc.Batch

namespace Rpc

open Cpp Cbor Led Program LastWriter

/-- A list to be sent in one packet: it fits, and it names an indicator at most
once. -/
structure Batch where
  changes : List IndicatorChange
  ne_nil : changes ≠ []
  fits : mapSize changes ≤ maxPayload
  nodup : (changes.map Prod.fst).Nodup

/-- The changes of some batches, in order. -/
def allChanges (batches : List Batch) : List IndicatorChange := batches.flatMap Batch.changes

/-- Every register of an indicator holds what the last change gives it, and the
other registers are as they were. -/
structure Shows (s t : LedManager) (changes : List IndicatorChange) : Prop where
  driven : ∀ which k this r, s.Drives which k this r → t.reg this r
    = ((lastOf which changes).map fun value => some (value.setting.duty s.rounding k)).getD
        (s.reg this r)
  others : ∀ this r, (∀ which k, ¬ s.Drives which k this r) → t.reg this r = s.reg this r

/-- The packets of the batches. -/
def batchPackets (cbor : Libcbor) : Byte → List Batch → List (List Byte)
  | _, [] => []
  | nextTag, batch :: batches =>
      changesPacket cbor (ClientBase.followingTag nextTag) batch.changes
        :: batchPackets cbor (ClientBase.followingTag nextTag) batches

/-- The tag of the last packet. -/
def tagAfter : Byte → List Batch → Byte
  | nextTag, [] => nextTag
  | nextTag, _ :: batches => tagAfter (ClientBase.followingTag nextTag) batches

section Batches

variable {cbor : Libcbor} {table : IndicatorTable} {this : Nat} {batches later : List Batch}
  {nextTag : Byte} {s t : Server} {led : LedManager}

theorem batchPackets_append :
    batchPackets cbor nextTag (batches ++ later)
      = batchPackets cbor nextTag batches
        ++ batchPackets cbor (tagAfter nextTag batches) later := by
  induction batches generalizing nextTag with
  | nil => rfl
  | cons batch batches ih =>
      rw [List.cons_append, batchPackets, ih, batchPackets, tagAfter, List.cons_append]

theorem tagAfter_append :
    tagAfter nextTag (batches ++ later) = tagAfter (tagAfter nextTag batches) later := by
  induction batches generalizing nextTag with
  | nil => rfl
  | cons batch batches ih => exact ih

variable (cbor) in
/-- A socket that takes everything takes the packet of a batch. -/
theorem setIndicatorState_run (batch : Batch) (c : ClientBase) :
    (setIndicatorState cbor (fun _ => true) batch.changes).run c = .ok () { c with
      nextTag := tagAfter c.nextTag [batch]
      written := c.written ++ batchPackets cbor c.nextTag [batch] } := by
  obtain ⟨changes, hne, _, _⟩ := batch
  cases changes with
  | nil => exact absurd rfl hne
  | cons change changes => rfl

/-! ## The last change -/

/-- Where an indicator is changed once, its first change is its last. -/
theorem firstOf_eq_lastOf {V : Type} {l : List (Indicator × V)} (h : (l.map Prod.fst).Nodup)
    (which : Indicator) : firstOf which l = lastOf which l := by
  cases hfirst : firstOf which l with
  | some v => exact ((lastOf_eq_some_iff h).mpr (mem_of_firstOf hfirst)).symm
  | none =>
      cases hlast : lastOf which l with
      | none => rfl
      | some v =>
          obtain ⟨w, hw⟩ := exists_firstOf (mem_of_lastOf hlast)
          rw [hw] at hfirst
          cases hfirst

/-- In any order of the table, the last setting is that of the last change. -/
theorem lastOf_flatMap_settings (table : IndicatorTable) (batches : List Batch)
    (which : Indicator) :
    lastOf which (batches.flatMap fun batch => settings table batch.changes)
      = (lastOf which (allChanges batches)).map IndicatorValue.setting := by
  induction batches with
  | nil => rfl
  | cons batch batches ih =>
      have hall : allChanges (batch :: batches) = batch.changes ++ allChanges batches :=
        List.flatMap_cons
      rw [List.flatMap_cons, lastOf_append, ih, lastOf_settings, firstOf_eq_lastOf batch.nodup,
        hall, lastOf_append, Option.map_or]

/-! ## Serving the packets -/

/-- Every indicator that is mapped has a channel. -/
def Wired (led : LedManager) : Prop := ∀ which this, led.handler which ≠ some (this, [])

theorem Wired.takes (h : Wired led) (which : Indicator) (value : IndicatorValue) :
    led.Takes which value.setting := takes_setting_iff.mpr fun _ this => h which this

variable (table this nextTag) in
/-- pinballd gets through the packets, and the settings of all of them are made. -/
theorem ends_batches (hf : ∀ batch ∈ batches, Faithful cbor batch.changes)
    (hbus : s.ledManager.bus = []) (hwired : Wired s.ledManager) :
    Ends cbor table this (batchPackets cbor nextTag batches) s (s.ledManager.paintedAll
      (batches.flatMap fun batch => settings table batch.changes)) := by
  induction batches generalizing s nextTag with
  | nil => exact ends_nil_iff.mpr rfl
  | cons batch batches ih =>
      have htakes : ∀ x ∈ settings table batch.changes, s.ledManager.Takes x.1 x.2 := by
        rintro ⟨which, setting⟩ hx
        obtain ⟨value, _, rfl⟩ := mem_settings_iff.mp hx
        exact hwired.takes which value
      obtain ⟨u, hu, hled⟩ := (readCallback_changes_iff (hf batch List.mem_cons_self) hbus).mpr
        ⟨batch.fits, htakes, rfl⟩
      -- the first packet leaves the bus and the mapping alone
      have hkept : u.ledManager.bus = [] ∧
          ∀ which, u.ledManager.handler which = s.ledManager.handler which := by
        rw [hled]
        exact ⟨LedManager.bus_paintedAll htakes hbus, LedManager.handler_paintedAll _⟩
      have hrest := ih (ClientBase.followingTag nextTag)
        (fun b hb => hf b (List.mem_cons_of_mem batch hb)) hkept.1
        fun which this => by rw [hkept.2]; exact hwired which this
      rw [batchPackets, ends_cons_iff]
      refine ⟨u, hu, ?_⟩
      rw [List.flatMap_cons, LedManager.paintedAll, List.foldl_append]
      rw [hled] at hrest
      exact hrest

variable (table this nextTag) in
/-- The packets of the batches, read one after the other, show the last changes. -/
theorem shows_ends (hf : ∀ batch ∈ batches, Faithful cbor batch.changes)
    (hbus : s.ledManager.bus = []) (hwired : Wired s.ledManager) :
    ∃ t, serve cbor table this (batchPackets cbor nextTag batches) s = some t ∧
      Shows s.ledManager t.ledManager (allChanges batches) ∧ t.ledManager.bus = [] ∧
      ∀ which, t.ledManager.handler which = s.ledManager.handler which := by
  obtain ⟨t, ht, hled⟩ := ends_batches table this nextTag hf hbus hwired
  have htakes : ∀ x ∈ batches.flatMap fun batch => settings table batch.changes,
      s.ledManager.Takes x.1 x.2 := by
    rintro ⟨which, setting⟩ hx
    obtain ⟨batch, _, hx⟩ := List.mem_flatMap.mp hx
    obtain ⟨value, _, rfl⟩ := mem_settings_iff.mp hx
    exact hwired.takes which value
  refine ⟨t, ht, ⟨?_, ?_⟩, ?_, ?_⟩
  · intro which k this r hdrives
    rw [hled, LedManager.reg_paintedAll htakes hdrives, lastOf_flatMap_settings, Option.map_map]
    rfl
  · intro this r hnone
    rw [hled]
    exact LedManager.reg_paintedAll_of_not_drives hnone
  · rw [hled]
    exact LedManager.bus_paintedAll htakes hbus
  · rw [hled]
    exact LedManager.handler_paintedAll _

end Batches

end Rpc
