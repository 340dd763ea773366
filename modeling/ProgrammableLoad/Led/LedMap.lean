/-
# `Led.LedMap` — the LED map of a driver's configuration

`Pca9955::readLedMap` goes through the pairs of a CBOR map, whose keys are the
numbers of indicators.  It notes the channels it has given away, so that no
channel is given twice, and refuses more than three to an indicator.  That a
channel is one of the chip it does not check: the bitset it is looked up in is
not made for others.

Of two pairs with the same key the first one counts, but both of them use up
their channels.
-/
import ProgrammableLoad.Cbor.Util
import ProgrammableLoad.Led.Pca9955

namespace Led

open Cpp Cbor Cbor.Util Program

/-! ## Reading -/

/-- `LedManager::IsValidIndicatorValue`, with the indicator of the value. -/
def Indicator.ofValue? : Nat → Option Indicator
  | 1 => some .btnModeCc
  | 2 => some .btnModeCv
  | 3 => some .btnModeCw
  | 4 => some .btnModeExt
  | 5 => some .btnLoadOn
  | 6 => some .status
  | 7 => some .trigger
  | 8 => some .overheat
  | 9 => some .overcurrent
  | 10 => some .error
  | 11 => some .btnMenu
  | _ => none

namespace Pca9955

/-- The member `channels` while it is built, with the bits of `allocated`. -/
structure Assignment where
  allocated : Finset Nat
  channels : Indicator → Option (List Nat)

/-- `allocated[idx]`, tested and set; the subscript has the width of `size_t`. -/
def allocate (allocated : Finset Nat) (idx : Nat) : Except Fault (Nat × Finset Nat) :=
  let channel := idx % 2 ^ sizeBits
  if kNumChannels ≤ channel then
    .error (.undefined "std::bitset::operator[]")
  else if channel ∈ allocated then
    .error (.thrown (.runtimeError s!"already allocated channel {idx}"))
  else
    .ok (channel, insert channel allocated)

/-- The loop over an array of channels. -/
def readChannels (allocated : Finset Nat) : List Item → Except Fault (List Nat × Finset Nat)
  | [] => .ok ([], allocated)
  | item :: items => do
      let (channel, allocated) ← allocate allocated (← cborReadUint item)
      let (indices, allocated) ← readChannels allocated items
      return (channel :: indices, allocated)

/-- The channels that the value of a pair assigns, if it is not null. -/
def readInfo (allocated : Finset Nat) (value : Item) :
    Except Fault (Option (List Nat × Finset Nat)) := do
  if value.isaUint then
    let (channel, allocated) ← allocate allocated (← cborReadUint value)
    return some ([channel], allocated)
  else if value.isaArray then
    let items ← value.arrayItems
    if 3 < items.length then
      throw (.thrown (.runtimeError
        s!"too many channels specified ({items.length}, max 3)"))
    else
      return some (← readChannels allocated items)
  else if value.isaFloatCtrl && value.isNull then
    return none
  else
    throw (.thrown (.runtimeError "invalid LED map value (expected uint, array, or null)"))

/-- `channels.emplace(indicatorId, info)` -/
def Assignment.emplace (a : Assignment) (which : Indicator) (indices : List Nat)
    (allocated : Finset Nat) : Assignment where
  allocated := allocated
  channels := Function.update a.channels which (some ((a.channels which).getD indices))

/-- One turn of the loop over the pairs; the key has the width of the
enumeration. -/
def readPair (a : Assignment) (pair : Item × Item) : Except Fault Assignment := do
  let key ← cborReadUint pair.1
  match Indicator.ofValue? (key % 2 ^ 32) with
  | none => throw (.thrown (.runtimeError s!"invalid LED map key (${hex 0 key})"))
  | some which =>
      match ← readInfo a.allocated pair.2 with
      | none => return a
      | some (indices, allocated) => return a.emplace which indices allocated

def readPairs : Assignment → List (Item × Item) → Except Fault Assignment
  | a, [] => .ok a
  | a, pair :: pairs => do readPairs (← readPair a pair) pairs

/-! ## What is read -/

/-- The channels of the chip are each given once at most. -/
structure Assignment.Valid (a : Assignment) : Prop where
  allocated_lt : ∀ i ∈ a.allocated, i < kNumChannels
  mem_allocated : ∀ {which l}, a.channels which = some l → ∀ i ∈ l, i ∈ a.allocated
  length_le : ∀ {which l}, a.channels which = some l → l.length ≤ 3
  nodup : ∀ {which l}, a.channels which = some l → l.Nodup
  disjoint : ∀ {which which' l l'}, which ≠ which' →
    a.channels which = some l → a.channels which' = some l' → l.Disjoint l'

/-- The driver has no channels yet. -/
def Assignment.empty : Assignment := ⟨∅, fun _ => none⟩

theorem Assignment.valid_empty : Assignment.empty.Valid where
  allocated_lt := fun _ hi => absurd hi (Finset.notMem_empty _)
  mem_allocated := nofun
  length_le := nofun
  nodup := nofun
  disjoint := fun _ => nofun

/-- New channels of the chip, and the bits with them set. -/
structure Allocates (allocated : Finset Nat) (l : List Nat) (allocated' : Finset Nat) : Prop where
  lt : ∀ i ∈ l, i < kNumChannels
  notMem : ∀ i ∈ l, i ∉ allocated
  nodup : l.Nodup
  eq_union : allocated' = allocated ∪ l.toFinset

section Reading

variable {allocated allocated' : Finset Nat} {l : List Nat} {a b : Assignment}

theorem allocate_eq_ok {idx channel : Nat}
    (h : allocate allocated idx = .ok (channel, allocated')) :
    channel < kNumChannels ∧ channel ∉ allocated ∧ allocated' = insert channel allocated := by
  unfold allocate at h
  by_cases hlt : kNumChannels ≤ idx % 2 ^ sizeBits
  · rw [if_pos hlt] at h
    cases h
  · rw [if_neg hlt] at h
    by_cases hmem : idx % 2 ^ sizeBits ∈ allocated
    · rw [if_pos hmem] at h
      cases h
    · rw [if_neg hmem] at h
      cases h
      exact ⟨Nat.lt_of_not_le hlt, hmem, rfl⟩

theorem readChannels_eq_ok {items : List Item}
    (h : readChannels allocated items = .ok (l, allocated')) :
    Allocates allocated l allocated' ∧ l.length = items.length := by
  induction items generalizing allocated l with
  | nil =>
      cases h
      exact ⟨⟨nofun, nofun, .nil, by simp⟩, rfl⟩
  | cons item items ih =>
      rw [readChannels] at h
      obtain ⟨idx, _, h⟩ := except_bind_eq_ok.mp h
      obtain ⟨⟨channel, next⟩, hfirst, h⟩ := except_bind_eq_ok.mp h
      obtain ⟨⟨rest, last⟩, hrest, h⟩ := except_bind_eq_ok.mp h
      cases h
      obtain ⟨hlt, hnot, rfl⟩ := allocate_eq_ok hfirst
      obtain ⟨hrest, hlength⟩ := ih hrest
      refine ⟨⟨?_, ?_, ?_, ?_⟩, congrArg (· + 1) hlength⟩
      · exact List.forall_mem_cons.mpr ⟨hlt, hrest.lt⟩
      · refine List.forall_mem_cons.mpr ⟨hnot, ?_⟩
        intro i hi hmem
        exact hrest.notMem i hi (Finset.mem_insert_of_mem hmem)
      · refine List.nodup_cons.mpr ⟨fun hmem => ?_, hrest.nodup⟩
        exact hrest.notMem channel hmem (Finset.mem_insert_self _ _)
      · rw [hrest.eq_union, List.toFinset_cons, Finset.insert_union, Finset.union_insert]

/-- A value assigns nothing, or up to three new channels. -/
theorem readInfo_eq_ok {value : Item}
    (h : readInfo allocated value = .ok (some (l, allocated'))) :
    Allocates allocated l allocated' ∧ l.length ≤ 3 := by
  rw [readInfo] at h
  by_cases huint : value.isaUint = true
  · rw [if_pos huint] at h
    obtain ⟨idx, _, h⟩ := except_bind_eq_ok.mp h
    obtain ⟨⟨channel, next⟩, hfirst, h⟩ := except_bind_eq_ok.mp h
    cases h
    obtain ⟨hlt, hnot, rfl⟩ := allocate_eq_ok hfirst
    refine ⟨⟨?_, ?_, List.nodup_singleton _, ?_⟩, by simp⟩
    · exact List.forall_mem_singleton.mpr hlt
    · exact List.forall_mem_singleton.mpr hnot
    · rw [List.toFinset_cons, List.toFinset_nil, Finset.union_insert, Finset.union_empty]
  by_cases harray : value.isaArray = true
  · rw [if_neg huint, if_pos harray] at h
    obtain ⟨items, _, h⟩ := except_bind_eq_ok.mp h
    by_cases hmany : 3 < items.length
    · rw [if_pos hmany] at h
      cases h
    · rw [if_neg hmany] at h
      obtain ⟨pair, hread, h⟩ := except_bind_eq_ok.mp h
      cases h
      obtain ⟨hallocates, hlength⟩ := readChannels_eq_ok hread
      exact ⟨hallocates, hlength ▸ Nat.le_of_not_lt hmany⟩
  · rw [if_neg huint, if_neg harray] at h
    split at h
    · cases h
    · cases h

/-- Of a key's pairs the first one stays. -/
theorem channels_emplace {which which' : Indicator} {l' : List Nat}
    (h : (a.emplace which l allocated').channels which' = some l') :
    a.channels which' = some l' ∨ (which' = which ∧ l' = l) := by
  by_cases hwhich : which' = which
  · subst hwhich
    simp only [Assignment.emplace, Function.update_self, Option.some.injEq] at h
    subst h
    cases hold : a.channels which' with
    | none => exact .inr ⟨rfl, rfl⟩
    | some old => exact .inl rfl
  · simp only [Assignment.emplace, Function.update_of_ne hwhich] at h
    exact .inl h

theorem Assignment.Valid.emplace {which : Indicator} (ha : a.Valid)
    (h : Allocates a.allocated l allocated') (hlength : l.length ≤ 3) :
    (a.emplace which l allocated').Valid where
  allocated_lt := by
    intro i hi
    rw [Assignment.emplace, h.eq_union, Finset.mem_union, List.mem_toFinset] at hi
    exact hi.elim (ha.allocated_lt i) (h.lt i)
  mem_allocated := by
    intro which' l' hl' i hi
    rw [Assignment.emplace, h.eq_union, Finset.mem_union, List.mem_toFinset]
    rcases channels_emplace hl' with hold | ⟨_, rfl⟩
    · exact .inl (ha.mem_allocated hold i hi)
    · exact .inr hi
  length_le := by
    intro which' l' hl'
    rcases channels_emplace hl' with hold | ⟨_, rfl⟩
    · exact ha.length_le hold
    · exact hlength
  nodup := by
    intro which' l' hl'
    rcases channels_emplace hl' with hold | ⟨_, rfl⟩
    · exact ha.nodup hold
    · exact h.nodup
  disjoint := by
    intro which₁ which₂ l₁ l₂ hne hl₁ hl₂ i hi₁ hi₂
    rcases channels_emplace hl₁ with hold₁ | ⟨rfl, rfl⟩
    · rcases channels_emplace hl₂ with hold₂ | ⟨rfl, rfl⟩
      · exact ha.disjoint hne hold₁ hold₂ hi₁ hi₂
      · exact h.notMem i hi₂ (ha.mem_allocated hold₁ i hi₁)
    · rcases channels_emplace hl₂ with hold₂ | ⟨rfl, rfl⟩
      · exact h.notMem i hi₁ (ha.mem_allocated hold₂ i hi₂)
      · exact hne rfl

theorem valid_readPair {pair : Item × Item} (ha : a.Valid) (h : readPair a pair = .ok b) :
    b.Valid := by
  rw [readPair] at h
  obtain ⟨key, _, h⟩ := except_bind_eq_ok.mp h
  cases hwhich : Indicator.ofValue? (key % 2 ^ 32) with
  | none =>
      rw [hwhich] at h
      cases h
  | some which =>
      rw [hwhich] at h
      obtain ⟨info, hinfo, h⟩ := except_bind_eq_ok.mp h
      cases info with
      | none =>
          cases h
          exact ha
      | some info =>
          cases h
          obtain ⟨hallocates, hlength⟩ := readInfo_eq_ok hinfo
          exact ha.emplace hallocates hlength

theorem valid_readPairs {pairs : List (Item × Item)} (ha : a.Valid)
    (h : readPairs a pairs = .ok b) : b.Valid := by
  induction pairs generalizing a with
  | nil =>
      cases h
      exact ha
  | cons pair pairs ih =>
      rw [readPairs] at h
      obtain ⟨next, hpair, h⟩ := except_bind_eq_ok.mp h
      exact ih (valid_readPair ha hpair) h

end Reading

/-- The channels without the bits. -/
def Assignment.ledMap (a : Assignment) (h : a.Valid) : LedMap where
  indices := a.channels
  index_lt := fun hl i hi => h.allocated_lt i (h.mem_allocated hl i hi)
  length_le := h.length_le
  nodup := h.nodup
  disjoint := h.disjoint

def readLedMap (ledMap : Item) : Except Fault LedMap := do
  let pairs ← ledMap.mapHandle
  match h : readPairs .empty pairs with
  | .ok a => return a.ledMap (valid_readPairs Assignment.valid_empty h)
  | .error e => throw e

end Pca9955

end Led
