/-
# `Theory.Table` — entries of an association list changed in place

An association list stands for an unordered map: the order of its entries is
the order an iteration over the map happens to take.  `adjust` changes one
entry where it is, and a loop over keys that changes each entry once, or only
up to the first key it cannot pass, is a `foldl` of it.
-/
import Mathlib.Data.List.AList

namespace Table

variable {K V : Type} [DecidableEq K]

abbrev Entries (K V : Type) := AList fun _ : K => V

/-- The entries after one was put under a new key. -/
theorem lookup_insert_eq_some_iff {m : Entries K V} {k k' : K} {v v' : V} (h : k ∉ m) :
    (m.insert k v).lookup k' = some v' ↔ (k' = k ∧ v' = v) ∨ m.lookup k' = some v' := by
  by_cases hk : k' = k
  · subst hk
    rw [AList.lookup_insert, AList.lookup_eq_none.mpr h]
    simp [eq_comm]
  · rw [AList.lookup_insert_ne hk]
    simp [hk]

theorem lookup_erase_eq_some_iff {m : Entries K V} {k k' : K} {v : V} :
    (m.erase k).lookup k' = some v ↔ k' ≠ k ∧ m.lookup k' = some v := by
  by_cases hk : k' = k
  · subst hk
    rw [AList.lookup_erase]
    simp
  · rw [AList.lookup_erase_ne hk]
    simp [hk]

/-- The entry of a key, changed; no entry is added. -/
def adjust (m : Entries K V) (k : K) (f : V → V) : Entries K V :=
  match m.lookup k with
  | none => m
  | some v => m.replace k (f v)

theorem kreplace_cons (k k' : K) (v w : V) (l : List (Sigma fun _ : K => V)) :
    List.kreplace k v (⟨k', w⟩ :: l)
      = if k = k' then ⟨k, v⟩ :: l else ⟨k', w⟩ :: l.kreplace k v := by
  simp only [List.kreplace, List.lookmap_cons]
  split_ifs <;> rfl

theorem dlookup_kreplace (k k' : K) (v : V) :
    ∀ l : List (Sigma fun _ : K => V),
      (l.kreplace k v).dlookup k' = (l.dlookup k').map fun old => if k' = k then v else old
  | [] => rfl
  | ⟨j, w⟩ :: l => by
      rw [kreplace_cons]
      by_cases hj : k = j
      · subst hj
        by_cases hk : k' = k
        · subst hk
          simp
        · rw [if_pos rfl, List.dlookup_cons_ne _ _ hk, List.dlookup_cons_ne _ _ hk]
          simp [hk]
      · rw [if_neg hj]
        by_cases hk : k' = j
        · subst hk
          simp [Ne.symm hj]
        · rw [List.dlookup_cons_ne _ _ hk, List.dlookup_cons_ne _ _ hk]
          exact dlookup_kreplace k k' v l

@[simp] theorem lookup_adjust (m : Entries K V) (k k' : K) (f : V → V) :
    (adjust m k f).lookup k' = (m.lookup k').map fun v => if k' = k then f v else v := by
  unfold adjust
  cases hk : m.lookup k with
  | none =>
      by_cases hkk : k' = k
      · rw [hkk, hk]
        rfl
      · simp [hkk]
  | some v =>
      refine (dlookup_kreplace k k' (f v) _).trans ?_
      by_cases hkk : k' = k
      · subst hkk
        have hl : List.dlookup k' m.entries = some v := hk
        rw [hl, hk]
        simp
      · simp only [hkk, if_false]
        rfl

@[simp] theorem keys_adjust (m : Entries K V) (k : K) (f : V → V) :
    (adjust m k f).keys = m.keys := by
  unfold adjust
  cases m.lookup k with
  | none => rfl
  | some v => exact AList.keys_replace _ _ _

@[simp] theorem mem_adjust {m : Entries K V} {k k' : K} {f : V → V} :
    k' ∈ adjust m k f ↔ k' ∈ m := by
  rw [AList.mem_keys, keys_adjust, ← AList.mem_keys]

/-- The entries of some keys, changed one after the other. -/
def adjustAll (m : Entries K V) (ks : List K) (f : K → V → V) : Entries K V :=
  ks.foldl (fun m k => adjust m k (f k)) m

@[simp] theorem adjustAll_cons (m : Entries K V) (k : K) (ks : List K) (f : K → V → V) :
    adjustAll m (k :: ks) f = adjustAll (adjust m k (f k)) ks f := rfl

theorem lookup_adjustAll (m : Entries K V) {ks : List K} (hks : ks.Nodup) (f : K → V → V)
    (k : K) :
    (adjustAll m ks f).lookup k = (m.lookup k).map fun v => if k ∈ ks then f k v else v := by
  induction ks generalizing m with
  | nil =>
      show m.lookup k = _
      simp
  | cons j ks ih =>
      obtain ⟨hnot, hks⟩ := List.nodup_cons.mp hks
      rw [adjustAll_cons, ih _ hks, lookup_adjust, Option.map_map]
      congr 1
      funext v
      by_cases hj : k = j
      · subst hj
        simp [hnot]
      · simp [hj]

/-! ## A loop that stops at a key -/

omit [DecidableEq K] in
/-- A loop that goes on while `p` holds passes every key with `q`, a kind of
key it can pass, if and only if none of them is behind a key it cannot. -/
theorem mem_takeWhile_iff_pairwise {p q : K → Bool} (hqp : ∀ k, q k = true → p k = true)
    {ks : List K} (hks : ks.Nodup) :
    (∀ k ∈ ks, q k = true → k ∈ ks.takeWhile p) ↔
      ks.Pairwise fun a b => p a = true ∨ q b = false := by
  induction ks with
  | nil => simp
  | cons k ks ih =>
      obtain ⟨hnot, hks⟩ := List.nodup_cons.mp hks
      rw [List.pairwise_cons, ← ih hks]
      cases hp : p k with
      | true =>
          simp only [List.takeWhile_cons, hp, if_true, List.mem_cons, true_or, implies_true,
            true_and]
          constructor
          · intro h j hj hq
            rcases h j (.inr hj) hq with rfl | hmem
            · exact absurd hj hnot
            · exact hmem
          · intro h j hj hq
            rcases hj with rfl | hj
            · exact .inl rfl
            · exact .inr (h j hj hq)
      | false =>
          simp only [List.takeWhile_cons, hp, Bool.false_eq_true, if_false, List.mem_cons,
            List.not_mem_nil, false_or, imp_false, Bool.not_eq_true]
          constructor
          · intro h
            refine ⟨fun j hj => h j (.inr hj), ?_⟩
            intro j hj hq
            rw [h j (.inr hj)] at hq
            cases hq
          · rintro ⟨h, _⟩ j (rfl | hj)
            · cases hq : q j with
              | false => rfl
              | true => rw [hqp j hq] at hp; cases hp
            · exact h j hj

end Table
