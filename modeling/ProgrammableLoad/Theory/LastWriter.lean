/-
# `Theory.LastWriter` — cells that hold what was put last

Values are put under keys, one after the other.  A cell belongs to a key when
a put under that key decides what is read from it and a put under any other
key leaves it alone.  After a list of puts such a cell holds the last value
put under its key, `read_foldl`, whatever else the list holds.
-/
import Mathlib.Data.List.Nodup

namespace LastWriter

variable {K V : Type} [DecidableEq K] {k : K} {v : V} {x : K × V} {l : List (K × V)}

/-- The first value a list of puts has for a key. -/
def firstOf (k : K) (l : List (K × V)) : Option V :=
  (l.find? fun x => x.1 = k).map Prod.snd

/-- The last one. -/
def lastOf (k : K) (l : List (K × V)) : Option V := firstOf k l.reverse

theorem firstOf_cons : firstOf k (x :: l) = if x.1 = k then some x.2 else firstOf k l := by
  by_cases h : x.1 = k <;> simp [firstOf, h]

theorem lastOf_cons :
    lastOf k (x :: l) = (lastOf k l).or (if x.1 = k then some x.2 else none) := by
  simp only [lastOf, firstOf, List.reverse_cons, List.find?_append]
  cases List.find? (fun x => decide (x.1 = k)) l.reverse with
  | some y => rfl
  | none => by_cases h : x.1 = k <;> simp [h]

theorem lastOf_append {l' : List (K × V)} :
    lastOf k (l ++ l') = (lastOf k l').or (lastOf k l) := by
  simp only [lastOf, firstOf, List.reverse_append, List.find?_append, Option.map_or]

/-- Puts that are made from the elements of a list, from some of them. -/
theorem lastOf_filterMap_cons {α : Type} {f : α → Option (K × V)} {a : α} {as : List α} :
    lastOf k ((a :: as).filterMap f)
      = (lastOf k (as.filterMap f)).or (lastOf k (f a).toList) := by
  rw [← lastOf_append]
  cases h : f a with
  | none => rw [List.filterMap_cons_none h, Option.toList_none, List.nil_append]
  | some x => rw [List.filterMap_cons_some h, Option.toList_some, List.singleton_append]

theorem mem_of_firstOf (h : firstOf k l = some v) : (k, v) ∈ l := by
  obtain ⟨x, hx, rfl⟩ := Option.map_eq_some_iff.mp h
  have hk : x.1 = k := by simpa using List.find?_some hx
  rw [← hk]
  exact List.mem_of_find?_eq_some hx

theorem exists_firstOf (h : (k, v) ∈ l) : ∃ w, firstOf k l = some w := by
  have hsome : (l.find? fun x => decide (x.1 = k)).isSome = true :=
    List.find?_isSome.mpr ⟨(k, v), h, by simp⟩
  obtain ⟨x, hx⟩ := Option.isSome_iff_exists.mp hsome
  exact ⟨x.2, Option.map_eq_some_iff.mpr ⟨x, hx, rfl⟩⟩

theorem mem_of_lastOf (h : lastOf k l = some v) : (k, v) ∈ l :=
  List.mem_reverse.mp (mem_of_firstOf h)

theorem exists_lastOf (h : (k, v) ∈ l) : ∃ w, lastOf k l = some w :=
  exists_firstOf (List.mem_reverse.mpr h)

theorem firstOf_map {W : Type} (f : V → W) :
    firstOf k (l.map fun x => (x.1, f x.2)) = (firstOf k l).map f := by
  simp [firstOf, List.find?_map, Function.comp_def]

theorem lastOf_map {W : Type} (f : V → W) :
    lastOf k (l.map fun x => (x.1, f x.2)) = (lastOf k l).map f := by
  rw [lastOf, ← List.map_reverse, firstOf_map, lastOf]

/-- With one put for each key the last one is the only one. -/
theorem lastOf_eq_some_iff (hnodup : (l.map Prod.fst).Nodup) :
    lastOf k l = some v ↔ (k, v) ∈ l := by
  constructor
  · exact mem_of_lastOf
  · intro hmem
    obtain ⟨w, hw⟩ := exists_lastOf hmem
    have heq := List.inj_on_of_nodup_map hnodup hmem (mem_of_lastOf hw) rfl
    rw [hw, ← (Prod.mk.inj heq).2]

/-- Then the order of the puts does not matter. -/
theorem lastOf_perm {l' : List (K × V)} (hnodup : (l.map Prod.fst).Nodup) (h : l.Perm l') :
    lastOf k l = lastOf k l' := by
  have hnodup' : (l'.map Prod.fst).Nodup := (h.map Prod.fst).nodup_iff.mp hnodup
  ext v
  rw [lastOf_eq_some_iff hnodup, lastOf_eq_some_iff hnodup', h.mem_iff]

section Cell

variable {σ B : Type} {I : σ → Prop} (put : K → V → σ → σ) (read : σ → B) {val : V → B}

/-- The cell of the key `k` after a list of puts, from a state in an invariant
the puts keep. -/
theorem read_foldl (hkeep : ∀ j v s, I s → I (put j v s))
    (hother : ∀ j v s, I s → j ≠ k → read (put j v s) = read s)
    (hown : ∀ v, (k, v) ∈ l → ∀ s, I s → read (put k v s) = val v) {s : σ} (hs : I s) :
    read (l.foldl (fun s x => put x.1 x.2 s) s) = ((lastOf k l).map val).getD (read s) := by
  induction l generalizing s with
  | nil => rfl
  | cons x l ih =>
      have htail : ∀ v, (k, v) ∈ l → ∀ s, I s → read (put k v s) = val v :=
        fun v hv => hown v (List.mem_cons_of_mem x hv)
      rw [List.foldl_cons, ih htail (hkeep x.1 x.2 s hs), lastOf_cons]
      cases lastOf k l with
      | some w => rfl
      | none =>
          by_cases hx : x.1 = k
          · have hhead : (k, x.2) ∈ x :: l := hx ▸ List.mem_cons_self
            subst hx
            simp [hown x.2 hhead s hs]
          · simp [hx, hother x.1 x.2 s hs hx]

omit [DecidableEq K] in
/-- A cell that belongs to no key is as it was. -/
theorem read_foldl_of_unowned (hkeep : ∀ j v s, I s → I (put j v s))
    (hnone : ∀ j v s, I s → read (put j v s) = read s) {s : σ} (hs : I s) :
    read (l.foldl (fun s x => put x.1 x.2 s) s) = read s := by
  induction l generalizing s with
  | nil => rfl
  | cons x l ih =>
      rw [List.foldl_cons, ih (hkeep x.1 x.2 s hs)]
      exact hnone x.1 x.2 s hs

end Cell

end LastWriter
