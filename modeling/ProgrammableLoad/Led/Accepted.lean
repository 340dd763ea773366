/-
# `Led.Accepted` — which LED maps are accepted, and what is stored

The rest of the driver takes for granted that an indicator has one to three
channels, that these are channels of the chip, and that no two are the same.
`readLedMap` makes sure of most of it.  It does not look at a channel's number
before it uses it as a subscript of the allocation set, and it stores an empty
array as an indicator without channels.

`represents_iff` says on which maps neither of these shows.
-/
import ProgrammableLoad.Cbor.Lookup
import ProgrammableLoad.Led.LedMap

namespace Led

open Cpp Cbor Cbor.Util Program

namespace Pca9955

/-! ## The maps that are accepted -/

/-- The channel that an element of a value names. -/
def number : Item → List Nat
  | .uint _ v => [v % 2 ^ sizeBits]
  | _ => []

def numbers (items : List Item) : List Nat := items.flatMap number

/-- The elements of a value that are gone through. -/
def elements : Item → List Item
  | .uint width v => [.uint width v]
  | .array _ items => if items.length ≤ 3 then items else []
  | _ => []

def ValueTyped : Item → Prop
  | .uint _ _ => True
  | .array _ items => items.length ≤ 3 ∧ ∀ x ∈ items, x.isaUint = true
  | .ctrl n => n = 22
  | _ => False

/-- The indicator a key stands for. -/
def keyIndicator : Item → Option Indicator
  | .uint _ key => Indicator.ofValue? (key % 2 ^ 32)
  | _ => none

def PairTyped (pair : Item × Item) : Prop :=
  (keyIndicator pair.1).isSome = true ∧ ValueTyped pair.2

/-- All channels the pairs name, in order. -/
def allChannels (pairs : List (Item × Item)) : List Nat :=
  pairs.flatMap fun pair => numbers (elements pair.2)

/-- New channels of the chip, none of them twice. -/
def Fresh (allocated : Finset Nat) (l : List Nat) : Prop :=
  Allocates allocated l (allocated ∪ l.toFinset)

/-- The loops come to an element of a value: everything before it was accepted. -/
def ComesTo (pairs : List (Item × Item)) (x : Item) : Prop :=
  ∃ before pair after first rest, pairs = before ++ pair :: after ∧
    (∀ p ∈ before, PairTyped p) ∧ (keyIndicator pair.1).isSome = true ∧
    elements pair.2 = first ++ x :: rest ∧ (∀ y ∈ first, y.isaUint = true) ∧
    Fresh ∅ (allChannels before ++ numbers first)

/-- The value that counts for an indicator: the first one that is not null. -/
def firstInfo (which : Indicator) (pairs : List (Item × Item)) : Option Item :=
  (pairs.find? fun p => keyIndicator p.1 = some which ∧ p.2.isNull = false).map Prod.snd

/-! ## The property and the condition -/

/-- What the rest of the driver relies on. -/
structure Represents (channels : Indicator → Option (List Nat)) : Prop where
  index_lt : ∀ {which l}, channels which = some l → ∀ i ∈ l, i < kNumChannels
  length_pos : ∀ {which l}, channels which = some l → 1 ≤ l.length
  length_le : ∀ {which l}, channels which = some l → l.length ≤ 3
  nodup : ∀ {which l}, channels which = some l → l.Nodup
  disjoint : ∀ {which which' l l'}, which ≠ which' →
    channels which = some l → channels which' = some l' → l.Disjoint l'

/-- Reading the map makes no access outside the allocation set, and what it
stores is what the driver relies on. -/
structure ReadsSoundly (ledMap : Item) : Prop where
  defined : Defined (readLedMap ledMap)
  represents : ∀ channels, readLedMap ledMap = .ok channels → Represents channels.indices

/-- Every channel that is come to is one of the chip, and if all pairs are
accepted then no indicator gets an empty array. -/
structure Proper (pairs : List (Item × Item)) : Prop where
  in_range : ∀ width v, ComesTo pairs (.uint width v) → v % 2 ^ sizeBits < kNumChannels
  not_empty : (∀ p ∈ pairs, PairTyped p) → Fresh ∅ (allChannels pairs) →
    ∀ which definite, firstInfo which pairs ≠ some (.array definite [])

/-! ## Allocating a list of channels -/

section Allocating

variable {allocated allocated' : Finset Nat} {l l' : List Nat} {c : Nat}

theorem allocates_nil : Allocates allocated [] allocated' ↔ allocated' = allocated := by
  constructor
  · intro h
    simpa using h.eq_union
  · rintro rfl
    exact ⟨nofun, nofun, .nil, by simp⟩

theorem fresh_nil : Fresh allocated [] := allocates_nil.mpr (by simp)

theorem allocates_cons : Allocates allocated (c :: l) allocated' ↔
    (c < kNumChannels ∧ c ∉ allocated) ∧ Allocates (insert c allocated) l allocated' := by
  constructor
  · rintro ⟨hlt, hnot, hnodup, rfl⟩
    obtain ⟨hc, hnodup⟩ := List.nodup_cons.mp hnodup
    refine ⟨⟨hlt c List.mem_cons_self, hnot c List.mem_cons_self⟩, ?_, ?_, hnodup, ?_⟩
    · intro i hi
      exact hlt i (List.mem_cons_of_mem _ hi)
    · intro i hi hmem
      rcases Finset.mem_insert.mp hmem with rfl | hmem
      · exact hc hi
      · exact hnot i (List.mem_cons_of_mem _ hi) hmem
    · rw [List.toFinset_cons, Finset.insert_union, Finset.union_insert]
  · rintro ⟨⟨hlt, hnot⟩, hrest⟩
    refine ⟨List.forall_mem_cons.mpr ⟨hlt, hrest.lt⟩, ?_, ?_, ?_⟩
    · refine List.forall_mem_cons.mpr ⟨hnot, ?_⟩
      intro i hi hmem
      exact hrest.notMem i hi (Finset.mem_insert_of_mem hmem)
    · refine List.nodup_cons.mpr ⟨?_, hrest.nodup⟩
      intro hmem
      exact hrest.notMem c hmem (Finset.mem_insert_self _ _)
    · rw [hrest.eq_union, List.toFinset_cons, Finset.insert_union, Finset.union_insert]

theorem allocates_append : Allocates allocated (l ++ l') allocated' ↔
    Fresh allocated l ∧ Allocates (allocated ∪ l.toFinset) l' allocated' := by
  induction l generalizing allocated with
  | nil =>
      simp [fresh_nil]
  | cons c l ih =>
      have hunion : insert c allocated ∪ l.toFinset = allocated ∪ (c :: l).toFinset := by
        rw [List.toFinset_cons, Finset.insert_union, Finset.union_insert]
      rw [List.cons_append, allocates_cons, ih, Fresh, Fresh, allocates_cons, hunion]
      simp only [and_assoc]

theorem fresh_of_allocates (h : Allocates allocated l allocated') : Fresh allocated l := by
  rw [Fresh, ← h.eq_union]
  exact h

end Allocating

/-! ## Reading the elements of a value -/

section Elements

variable {allocated allocated' : Finset Nat} {l : List Nat}

theorem allocate_eq_ok_iff {idx channel : Nat} :
    allocate allocated idx = .ok (channel, allocated') ↔
      channel = idx % 2 ^ sizeBits ∧ (channel < kNumChannels ∧ channel ∉ allocated) ∧
        allocated' = insert channel allocated := by
  unfold allocate
  by_cases hlt : kNumChannels ≤ idx % 2 ^ sizeBits
  · rw [if_pos hlt]
    refine iff_of_false (fun h => nomatch h) ?_
    rintro ⟨rfl, ⟨hlt', _⟩, _⟩
    exact absurd hlt' (Nat.not_lt.mpr hlt)
  · rw [if_neg hlt]
    by_cases hmem : idx % 2 ^ sizeBits ∈ allocated
    · rw [if_pos hmem]
      refine iff_of_false (fun h => nomatch h) ?_
      rintro ⟨rfl, ⟨_, hnot⟩, _⟩
      exact hnot hmem
    · rw [if_neg hmem]
      constructor
      · intro h
        cases h
        exact ⟨rfl, ⟨Nat.lt_of_not_le hlt, hmem⟩, rfl⟩
      · rintro ⟨rfl, _, rfl⟩
        rfl

theorem defined_allocate_iff {idx : Nat} :
    Defined (allocate allocated idx) ↔ idx % 2 ^ sizeBits < kNumChannels := by
  unfold allocate
  by_cases hlt : kNumChannels ≤ idx % 2 ^ sizeBits
  · rw [if_pos hlt]
    exact iff_of_false (not_defined_undefined _) (Nat.not_lt.mpr hlt)
  · rw [if_neg hlt]
    refine iff_of_true ?_ (Nat.lt_of_not_le hlt)
    by_cases hmem : idx % 2 ^ sizeBits ∈ allocated
    · rw [if_pos hmem]
      exact defined_thrown _
    · rw [if_neg hmem]
      exact defined_ok _

theorem readChannels_cons_uint (width : IntWidth) (v : Nat) (items : List Item) :
    readChannels allocated (.uint width v :: items)
      = allocate allocated v >>= fun first => readChannels first.2 items >>= fun rest =>
          pure (first.1 :: rest.1, rest.2) := rfl

theorem readChannels_cons_other {x : Item} (items : List Item) (h : ¬ x.isaUint = true) :
    readChannels allocated (x :: items)
      = .error (.thrown (.runtimeError "invalid type (expected uint)")) := by
  rw [readChannels, cborReadUint_of_not h]
  rfl

theorem readChannels_eq_ok_iff {items : List Item} :
    readChannels allocated items = .ok (l, allocated') ↔
      (∀ x ∈ items, x.isaUint = true) ∧ Allocates allocated (numbers items) allocated' ∧
        l = numbers items := by
  induction items generalizing allocated l with
  | nil =>
      show Except.ok (([] : List Nat), allocated) = _ ↔ _
      simp only [numbers, List.flatMap_nil, allocates_nil, Except.ok.injEq, Prod.mk.injEq]
      constructor
      · rintro ⟨rfl, rfl⟩
        exact ⟨nofun, rfl, rfl⟩
      · rintro ⟨_, rfl, rfl⟩
        exact ⟨rfl, rfl⟩
  | cons x items ih =>
      by_cases hx : x.isaUint = true
      · obtain ⟨width, v, rfl⟩ := isaUint_iff.mp hx
        have hnumbers : numbers (.uint width v :: items) = v % 2 ^ sizeBits :: numbers items := rfl
        rw [readChannels_cons_uint, hnumbers, allocates_cons]
        constructor
        · intro h
          obtain ⟨⟨channel, next⟩, hfirst, h⟩ := except_bind_eq_ok.mp h
          obtain ⟨⟨rest, last⟩, hrest, h⟩ := except_bind_eq_ok.mp h
          cases h
          obtain ⟨rfl, hnew, rfl⟩ := allocate_eq_ok_iff.mp hfirst
          obtain ⟨huints, hallocates, rfl⟩ := ih.mp hrest
          exact ⟨List.forall_mem_cons.mpr ⟨rfl, huints⟩, ⟨hnew, hallocates⟩, rfl⟩
        · rintro ⟨huints, ⟨hnew, hallocates⟩, rfl⟩
          have hrest := ih.mpr ⟨(List.forall_mem_cons.mp huints).2, hallocates, rfl⟩
          exact except_bind_eq_ok.mpr ⟨_, allocate_eq_ok_iff.mpr ⟨rfl, hnew, rfl⟩,
            except_bind_eq_ok.mpr ⟨_, hrest, rfl⟩⟩
      · rw [readChannels_cons_other items hx]
        refine iff_of_false (fun h => nomatch h) ?_
        rintro ⟨huints, _⟩
        exact hx (huints x List.mem_cons_self)

theorem defined_readChannels_iff {items : List Item} :
    Defined (readChannels allocated items) ↔
      ∀ first width v rest, items = first ++ .uint width v :: rest →
        (∀ y ∈ first, y.isaUint = true) → Fresh allocated (numbers first) →
        v % 2 ^ sizeBits < kNumChannels := by
  induction items generalizing allocated with
  | nil =>
      refine iff_of_true (defined_ok _) ?_
      intro first width v rest h
      simp at h
  | cons x items ih =>
      by_cases hx : x.isaUint = true
      · obtain ⟨width, v, rfl⟩ := isaUint_iff.mp hx
        have hnumbers : ∀ first : List Item, numbers (.uint width v :: first)
            = v % 2 ^ sizeBits :: numbers first := fun _ => rfl
        rw [readChannels_cons_uint, defined_bind_iff, defined_allocate_iff]
        constructor
        · rintro ⟨hlt, htail⟩ (_ | ⟨y, first⟩) width' v' rest hitems huints hfresh
          · cases hitems
            exact hlt
          · cases hitems
            rw [hnumbers, Fresh, allocates_cons] at hfresh
            obtain ⟨hnew, hfirst⟩ := hfresh
            have hhead := htail (v % 2 ^ sizeBits, _) (allocate_eq_ok_iff.mpr ⟨rfl, hnew, rfl⟩)
            exact ih.mp (defined_bind_iff.mp hhead).1 first width' v' rest rfl
              (List.forall_mem_cons.mp huints).2 (fresh_of_allocates hfirst)
        · intro h
          have hlt := h [] width v items rfl nofun fresh_nil
          refine ⟨hlt, ?_⟩
          rintro ⟨channel, next⟩ hfirst
          obtain ⟨rfl, hnew, rfl⟩ := allocate_eq_ok_iff.mp hfirst
          refine defined_bind_iff.mpr ⟨ih.mpr ?_, fun _ _ => defined_pure _⟩
          rintro first width' v' rest rfl huints hfresh
          refine h (.uint width v :: first) width' v' rest rfl
            (List.forall_mem_cons.mpr ⟨rfl, huints⟩) ?_
          rw [hnumbers]
          exact fresh_of_allocates (allocates_cons.mpr ⟨hnew, hfresh⟩)
      · rw [readChannels_cons_other items hx]
        refine iff_of_true (defined_thrown _) ?_
        rintro (_ | ⟨y, first⟩) width v rest hitems huints
        · cases hitems
          exact absurd rfl hx
        · cases hitems
          exact absurd (huints x List.mem_cons_self) hx

end Elements

/-! ## Reading the pairs -/

section Pairs

variable {a b : Assignment} {pair : Item × Item} {pairs : List (Item × Item)}

/-- The channels after a pair: its value counts if it is not null and the
indicator has none. -/
def Assignment.with (a : Assignment) (which : Indicator) (value : Item) : Assignment :=
  if value.isNull then a
  else a.emplace which (numbers (elements value))
    (a.allocated ∪ (numbers (elements value)).toFinset)

theorem readInfo_uint (allocated : Finset Nat) (width : IntWidth) (v : Nat) :
    readInfo allocated (.uint width v)
      = (readChannels allocated (elements (.uint width v))).map some := by
  show (allocate allocated v >>= fun first => pure (some ([first.1], first.2))) = _
  rw [elements, readChannels_cons_uint]
  cases allocate allocated v <;> rfl

theorem readInfo_array (allocated : Finset Nat) (definite : Bool) {items : List Item}
    (h : items.length ≤ 3) :
    readInfo allocated (.array definite items)
      = (readChannels allocated (elements (.array definite items))).map some := by
  show (if 3 < items.length then _ else readChannels allocated items >>= fun r => pure (some r)) = _
  rw [if_neg (Nat.not_lt.mpr h), elements, if_pos h]
  cases readChannels allocated items <;> rfl

theorem readInfo_long_array (allocated : Finset Nat) (definite : Bool) {items : List Item}
    (h : 3 < items.length) : ∃ e, readInfo allocated (.array definite items) = .error (.thrown e) := by
  refine ⟨.runtimeError s!"too many channels specified ({items.length}, max 3)", ?_⟩
  show (if 3 < items.length then _ else _) = _
  rw [if_pos h]
  rfl

theorem readInfo_ctrl (allocated : Finset Nat) (n : Nat) :
    readInfo allocated (.ctrl n) = if n = 22 then .ok none else .error (.thrown (.runtimeError
      "invalid LED map value (expected uint, array, or null)")) := by
  by_cases hn : n = 22
  · subst hn
    rfl
  · simp [readInfo, Item.isaUint, Item.isaArray, Item.isaFloatCtrl, Item.isNull, hn, throw,
      throwThe, MonadExceptOf.throw]

theorem map_some_eq_ok_iff {α : Type} {x : Except Fault α} {y : Option α} :
    x.map some = .ok y ↔ ∃ a, x = .ok a ∧ y = some a := by
  cases x with
  | ok a => simp [Except.map, eq_comm]
  | error e => simp [Except.map]

theorem readInfo_eq_ok_iff {allocated : Finset Nat} {value : Item}
    {info : Option (List Nat × Finset Nat)} :
    readInfo allocated value = .ok info ↔
      ValueTyped value ∧ Fresh allocated (numbers (elements value)) ∧
        info = if value.isNull then none else
          some (numbers (elements value), allocated ∪ (numbers (elements value)).toFinset) := by
  have hlisted : ∀ items : List Item, (readChannels allocated items).map some = .ok info ↔
      (∀ x ∈ items, x.isaUint = true) ∧ Fresh allocated (numbers items) ∧
        info = some (numbers items, allocated ∪ (numbers items).toFinset) := by
    intro items
    rw [map_some_eq_ok_iff]
    constructor
    · rintro ⟨⟨l, allocated'⟩, hread, rfl⟩
      obtain ⟨huints, hallocates, rfl⟩ := readChannels_eq_ok_iff.mp hread
      exact ⟨huints, fresh_of_allocates hallocates, by rw [hallocates.eq_union]⟩
    · rintro ⟨huints, hfresh, rfl⟩
      exact ⟨_, readChannels_eq_ok_iff.mpr ⟨huints, hfresh, rfl⟩, rfl⟩
  cases value with
  | uint width v =>
      rw [readInfo_uint, hlisted]
      simp [ValueTyped, elements, Item.isaUint, Item.isNull]
  | array definite items =>
      by_cases h : items.length ≤ 3
      · rw [readInfo_array allocated definite h, hlisted]
        simp [ValueTyped, elements, h, Item.isNull]
      · obtain ⟨e, he⟩ := readInfo_long_array allocated definite (Nat.lt_of_not_le h)
        rw [he]
        simp [ValueTyped, h]
  | ctrl n =>
      rw [readInfo_ctrl]
      by_cases hn : n = 22
      · simp [hn, ValueTyped, elements, numbers, fresh_nil, Item.isNull, eq_comm]
      · simp [hn, ValueTyped]
  | _ =>
      refine iff_of_false ?_ ?_
      · intro h
        cases h
      · rintro ⟨h, _⟩
        exact h

theorem defined_readInfo_iff {allocated : Finset Nat} {value : Item} :
    Defined (readInfo allocated value) ↔ Defined (readChannels allocated (elements value)) := by
  have hmap : ∀ x : Except Fault (List Nat × Finset Nat),
      Defined (x.map some) ↔ Defined x := by
    rintro (e | a)
    · exact defined_error_iff.trans defined_error_iff.symm
    · exact iff_of_true (defined_ok _) (defined_ok _)
  cases value with
  | uint width v => rw [readInfo_uint, hmap]
  | array definite items =>
      by_cases h : items.length ≤ 3
      · rw [readInfo_array allocated definite h, hmap]
      · obtain ⟨e, he⟩ := readInfo_long_array allocated definite (Nat.lt_of_not_le h)
        rw [he, elements, if_neg h]
        exact iff_of_true (defined_thrown _) (defined_ok _)
  | ctrl n =>
      rw [readInfo_ctrl]
      refine iff_of_true ?_ (defined_ok _)
      split
      · exact defined_ok _
      · exact defined_thrown _
  | _ => exact iff_of_true (defined_thrown _) (defined_ok _)

theorem readPair_of_some {key value : Item} {which : Indicator}
    (h : keyIndicator key = some which) :
    readPair a (key, value) = readInfo a.allocated value >>= fun info =>
      pure (match info with
        | none => a
        | some (indices, allocated) => a.emplace which indices allocated) := by
  cases key with
  | uint width v =>
      replace h : Indicator.ofValue? (v % 2 ^ 32) = some which := h
      rw [readPair, show cborReadUint (Item.uint width v) = .ok v from rfl]
      simp only [bind, Except.bind, h]
      refine congrArg (readInfo a.allocated value >>= ·) ?_
      funext info
      cases info <;> rfl
  | _ => cases h

theorem readPair_of_none {key : Item} (value : Item) (h : keyIndicator key = none) :
    ∃ e, readPair a (key, value) = .error (.thrown e) := by
  cases key with
  | uint width v =>
      replace h : Indicator.ofValue? (v % 2 ^ 32) = none := h
      refine ⟨.runtimeError s!"invalid LED map key (${hex 0 v})", ?_⟩
      rw [readPair, show cborReadUint (Item.uint width v) = .ok v from rfl]
      simp only [bind, Except.bind, h]
      rfl
  | _ => exact ⟨_, rfl⟩

theorem readPair_eq_ok_iff : readPair a pair = .ok b ↔
    ∃ which, keyIndicator pair.1 = some which ∧ ValueTyped pair.2 ∧
      Fresh a.allocated (numbers (elements pair.2)) ∧ b = a.with which pair.2 := by
  obtain ⟨key, value⟩ := pair
  cases hkey : keyIndicator key with
  | none =>
      obtain ⟨e, he⟩ := readPair_of_none (a := a) value hkey
      simp [he]
  | some which =>
      rw [readPair_of_some hkey, except_bind_eq_ok]
      simp only [readInfo_eq_ok_iff]
      constructor
      · rintro ⟨info, ⟨htyped, hfresh, rfl⟩, hb⟩
        refine ⟨which, rfl, htyped, hfresh, ?_⟩
        cases hb
        unfold Assignment.with
        cases value.isNull <;> rfl
      · rintro ⟨_, ⟨⟩, htyped, hfresh, rfl⟩
        refine ⟨_, ⟨htyped, hfresh, rfl⟩, ?_⟩
        unfold Assignment.with
        cases value.isNull <;> rfl

theorem defined_readPair_iff : Defined (readPair a pair) ↔
    ((keyIndicator pair.1).isSome = true →
      Defined (readChannels a.allocated (elements pair.2))) := by
  obtain ⟨key, value⟩ := pair
  cases hkey : keyIndicator key with
  | none =>
      obtain ⟨e, he⟩ := readPair_of_none (a := a) value hkey
      simp [he]
  | some which =>
      rw [readPair_of_some hkey, defined_bind_iff, defined_readInfo_iff]
      simp

theorem elements_of_isNull {value : Item} (h : value.isNull = true) : elements value = [] := by
  cases value with
  | ctrl n => rfl
  | _ => cases h

/-- The bits after a pair. -/
theorem allocated_with (which : Indicator) (value : Item) :
    (a.with which value).allocated = a.allocated ∪ (numbers (elements value)).toFinset := by
  unfold Assignment.with
  split
  · rename_i hnull
    rw [elements_of_isNull hnull]
    simp [numbers]
  · rfl

theorem channels_with (which which' : Indicator) (key value : Item)
    (hkey : keyIndicator key = some which) :
    (a.with which value).channels which' = (a.channels which').or
      ((firstInfo which' [(key, value)]).map fun v => numbers (elements v)) := by
  unfold Assignment.with firstInfo
  cases hnull : value.isNull with
  | true => simp [hkey, hnull]
  | false =>
      by_cases hwhich : which' = which
      · subst hwhich
        cases ha : a.channels which' <;> simp [Assignment.emplace, hkey, hnull, ha]
      · simp [Assignment.emplace, hkey, hnull, hwhich, Ne.symm hwhich]

theorem firstInfo_cons (which : Indicator) (pair : Item × Item) (pairs : List (Item × Item)) :
    firstInfo which (pair :: pairs) = (firstInfo which [pair]).or (firstInfo which pairs) := by
  unfold firstInfo
  rw [show pair :: pairs = [pair] ++ pairs from rfl, List.find?_append, Option.map_or]

/-- What is accepted, and what comes of it. -/
theorem readPairs_eq_ok (h : readPairs a pairs = .ok b) :
    (∀ p ∈ pairs, PairTyped p) ∧ Allocates a.allocated (allChannels pairs) b.allocated ∧
      ∀ which, b.channels which = (a.channels which).or
        ((firstInfo which pairs).map fun v => numbers (elements v)) := by
  induction pairs generalizing a with
  | nil =>
      cases h
      refine ⟨nofun, allocates_nil.mpr rfl, ?_⟩
      intro which
      simp [firstInfo]
  | cons pair pairs ih =>
      rw [readPairs] at h
      obtain ⟨next, hpair, h⟩ := except_bind_eq_ok.mp h
      obtain ⟨which, hkey, htyped, hfresh, rfl⟩ := readPair_eq_ok_iff.mp hpair
      obtain ⟨htypes, hallocates, hchannels⟩ := ih h
      refine ⟨List.forall_mem_cons.mpr ⟨⟨by rw [hkey]; rfl, htyped⟩, htypes⟩, ?_, ?_⟩
      · rw [allocated_with] at hallocates
        exact allocates_append.mpr ⟨hfresh, hallocates⟩
      · intro which'
        rw [hchannels, channels_with which which' pair.1 pair.2 hkey,
          firstInfo_cons which' pair pairs, Option.map_or, Option.or_assoc]

theorem readPairs_returns_iff (a : Assignment) : (∃ b, readPairs a pairs = .ok b) ↔
    (∀ p ∈ pairs, PairTyped p) ∧ Fresh a.allocated (allChannels pairs) := by
  constructor
  · rintro ⟨b, hb⟩
    obtain ⟨htypes, hallocates, _⟩ := readPairs_eq_ok hb
    exact ⟨htypes, fresh_of_allocates hallocates⟩
  · induction pairs generalizing a with
    | nil => exact fun _ => ⟨a, rfl⟩
    | cons pair pairs ih =>
        rintro ⟨htypes, hfresh⟩
        obtain ⟨⟨hkey, htyped⟩, htypes⟩ := List.forall_mem_cons.mp htypes
        obtain ⟨which, hwhich⟩ := Option.isSome_iff_exists.mp hkey
        obtain ⟨hhead, htail⟩ := allocates_append.mp hfresh
        obtain ⟨b, hb⟩ := ih (a := a.with which pair.2)
          ⟨htypes, by rw [allocated_with]; exact fresh_of_allocates htail⟩
        exact ⟨b, except_bind_eq_ok.mpr
          ⟨_, readPair_eq_ok_iff.mpr ⟨which, hwhich, htyped, hhead, rfl⟩, hb⟩⟩

theorem readPairs_eq_foldlM : readPairs a pairs = pairs.foldlM readPair a := by
  induction pairs generalizing a with
  | nil => rfl
  | cons pair pairs ih =>
      rw [readPairs, List.foldlM_cons]
      refine congrArg (readPair a pair >>= ·) ?_
      funext b
      exact ih

/-- Reading stays within the allocation set if and only if every channel that
is come to is one of the chip. -/
theorem defined_readPairs_iff : Defined (readPairs .empty pairs) ↔
    ∀ width v, ComesTo pairs (.uint width v) → v % 2 ^ sizeBits < kNumChannels := by
  rw [readPairs_eq_foldlM, defined_foldlM_iff]
  constructor
  · rintro h width v ⟨before, pair, after, first, rest, hpairs, htypes, hkey, helements, huints,
      hfresh⟩
    obtain ⟨hbefore, hfirst⟩ := allocates_append.mp hfresh
    obtain ⟨b, hb⟩ := (readPairs_returns_iff .empty).mpr ⟨htypes, hbefore⟩
    have hallocated := (readPairs_eq_ok hb).2.1.eq_union
    have hread := defined_readPair_iff.mp
      (h before pair after b hpairs (readPairs_eq_foldlM.symm.trans hb)) hkey
    refine defined_readChannels_iff.mp hread first width v rest helements huints ?_
    rw [hallocated]
    exact fresh_of_allocates hfirst
  · intro h before pair after b hpairs hb
    obtain ⟨htypes, hallocates, _⟩ := readPairs_eq_ok (readPairs_eq_foldlM.trans hb)
    refine defined_readPair_iff.mpr fun hkey => defined_readChannels_iff.mpr ?_
    intro first width v rest helements huints hfirst
    refine h width v ⟨before, pair, after, first, rest, hpairs, htypes, hkey, helements, huints, ?_⟩
    rw [hallocates.eq_union] at hfirst
    exact fresh_of_allocates
      (allocates_append.mpr ⟨fresh_of_allocates hallocates, hfirst⟩)

end Pairs

/-! ## The maps that are read soundly -/

section Sound

variable {definite : Bool} {pairs : List (Item × Item)}

theorem readLedMap_map : readLedMap (.map definite pairs) =
    match h : readPairs .empty pairs with
    | .ok a => .ok (a.ledMap (valid_readPairs Assignment.valid_empty h))
    | .error e => .error e := rfl

theorem readLedMap_of_ok (definite : Bool) {a : Assignment}
    (h : readPairs .empty pairs = .ok a) :
    readLedMap (.map definite pairs)
      = .ok (a.ledMap (valid_readPairs Assignment.valid_empty h)) := by
  rw [readLedMap_map]
  split
  · rename_i a' ha'
    rw [h] at ha'
    cases ha'
    rfl
  · rename_i e he
    rw [h] at he
    cases he

theorem readLedMap_of_error (definite : Bool) {e : Fault}
    (h : readPairs .empty pairs = .error e) :
    readLedMap (.map definite pairs) = .error e := by
  rw [readLedMap_map]
  split
  · rename_i a ha
    rw [h] at ha
    cases ha
  · rename_i e' he
    rw [h] at he
    cases he
    rfl

/-- An accepted value that counts has channels unless it is an empty array. -/
theorem numbers_elements_eq_nil_iff {value : Item} (htyped : ValueTyped value)
    (hnull : value.isNull = false) :
    numbers (elements value) = [] ↔ ∃ definite, value = .array definite [] := by
  cases value with
  | uint width v =>
      refine iff_of_false (fun h => nomatch h) ?_
      rintro ⟨_, h⟩
      cases h
  | array definite items =>
      obtain ⟨hlength, huints⟩ := htyped
      rw [elements, if_pos hlength]
      cases items with
      | nil => exact iff_of_true rfl ⟨definite, rfl⟩
      | cons x items =>
          obtain ⟨width, v, rfl⟩ := isaUint_iff.mp (huints x List.mem_cons_self)
          refine iff_of_false (fun h => nomatch h) ?_
          rintro ⟨_, h⟩
          cases h
  | ctrl n =>
      subst htyped
      cases hnull
  | _ => exact htyped.elim

theorem typed_firstInfo {which : Indicator} {value : Item} (htypes : ∀ p ∈ pairs, PairTyped p)
    (h : firstInfo which pairs = some value) : ValueTyped value ∧ value.isNull = false := by
  obtain ⟨pair, hpair, rfl⟩ := Option.map_eq_some_iff.mp h
  have hfound := List.find?_some hpair
  simp only [decide_eq_true_eq] at hfound
  exact ⟨(htypes pair (List.mem_of_find?_eq_some hpair)).2, hfound.2⟩

/-- Of an accepted map everything the driver relies on holds, unless an
indicator was given an empty array. -/
theorem represents_iff {a : Assignment} (h : readPairs .empty pairs = .ok a) :
    Represents a.channels ↔ ∀ which definite, firstInfo which pairs ≠ some (.array definite []) := by
  obtain ⟨htypes, _, hchannels⟩ := readPairs_eq_ok h
  have hvalid := valid_readPairs Assignment.valid_empty h
  have hstored : ∀ which l, a.channels which = some l →
      ∃ value, firstInfo which pairs = some value ∧ numbers (elements value) = l := by
    intro which l hl
    rw [hchannels] at hl
    exact Option.map_eq_some_iff.mp hl
  constructor
  · intro hrep which definite hempty
    have hl : a.channels which = some [] := by
      rw [hchannels, hempty]
      rfl
    exact absurd (hrep.length_pos hl) (by decide)
  · intro hne
    refine ⟨?_, ?_, hvalid.length_le, hvalid.nodup, hvalid.disjoint⟩
    · intro which l hl i hi
      exact hvalid.allocated_lt i (hvalid.mem_allocated hl i hi)
    · intro which l hl
      obtain ⟨value, hvalue, rfl⟩ := hstored which l hl
      obtain ⟨htyped, hnull⟩ := typed_firstInfo htypes hvalue
      refine List.length_pos_iff.mpr fun hnil => ?_
      obtain ⟨definite, rfl⟩ := (numbers_elements_eq_nil_iff htyped hnull).mp hnil
      exact hne which definite hvalue

/-- Reading a map is sound if and only if the map is proper. -/
theorem readsSoundly_iff (definite : Bool) (pairs : List (Item × Item)) :
    ReadsSoundly (.map definite pairs) ↔ Proper pairs := by
  have haccepted : _ ↔ _ ∧ Fresh ∅ (allChannels pairs) := readPairs_returns_iff .empty
  cases hread : readPairs .empty pairs with
  | ok a =>
      obtain ⟨htypes, hfresh⟩ := haccepted.mp ⟨a, hread⟩
      have hmap := readLedMap_of_ok definite hread
      have hrange := defined_readPairs_iff.mp (Defined.of_ok hread)
      constructor
      · rintro ⟨_, hrep⟩
        exact ⟨hrange, fun _ _ => (represents_iff hread).mp (hrep _ hmap)⟩
      · rintro ⟨_, hempty⟩
        refine ⟨Defined.of_ok hmap, ?_⟩
        intro channels hchannels
        rw [hmap] at hchannels
        cases hchannels
        exact (represents_iff hread).mpr (hempty htypes hfresh)
  | error e =>
      have hmap := readLedMap_of_error definite hread
      have hrefused : ¬ ((∀ p ∈ pairs, PairTyped p) ∧ Fresh ∅ (allChannels pairs)) := by
        intro h
        obtain ⟨a, ha⟩ := haccepted.mpr h
        rw [hread] at ha
        cases ha
      constructor
      · rintro ⟨hdefined, _⟩
        rw [hmap, defined_error_iff] at hdefined
        refine ⟨defined_readPairs_iff.mp ?_, fun htypes hfresh =>
          absurd ⟨htypes, hfresh⟩ hrefused⟩
        rw [hread]
        exact defined_error_iff.mpr hdefined
      · rintro ⟨hrange, _⟩
        constructor
        · have hdefined := defined_readPairs_iff.mpr hrange
          rw [hread, defined_error_iff] at hdefined
          rw [hmap]
          exact defined_error_iff.mpr hdefined
        · intro channels hchannels
          rw [hmap] at hchannels
          cases hchannels

/-- An indicator with an empty array is stored without channels. -/
theorem not_readsSoundly_empty_array :
    ¬ ReadsSoundly (.map true [(.uint .int8 6, .array true [])]) := by
  rintro ⟨_, hrep⟩
  exact absurd (@Represents.length_pos _ (hrep _ rfl) .status [] rfl) (by decide)

end Sound

end Pca9955

end Led
