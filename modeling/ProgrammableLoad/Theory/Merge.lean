/-
# `Theory.Merge` — several queues that are emptied into one

The elements of a merged sequence come with the key of their queue, and `part`
takes them apart again.  A round takes one element at most from each of some
queues.  Where elements set a value, the last one that does decides; in a
merged sequence it is also the last of its own queue, `exists_last_part`.
-/
import Mathlib.Data.List.Induction
import Mathlib.Data.List.Nodup

namespace Merging

variable {K M A : Type}

/-! ## The last element that sets a value -/

/-- The value that the last element with one sets. -/
def last (f : M → Option A) (l : List M) : Option A := (l.filterMap f).getLast?

variable {f : M → Option A} {l : List M} {a : A}

theorem last_concat (f : M → Option A) (l : List M) (m : M) :
    last f (l ++ [m]) = (f m).or (last f l) := by
  rw [last, last, List.filterMap_append]
  cases hm : f m with
  | none => simp [hm]
  | some b => simp [hm]

/-! ## The parts of a merged sequence -/

/-- One element at most of each of some queues. -/
def round (offers : K → Option M) (ks : List K) : List (K × M) :=
  ks.filterMap fun k => (offers k).map (k, ·)

theorem round_cons (offers : K → Option M) (k : K) (ks : List K) :
    round offers (k :: ks) = ((offers k).map (k, ·)).toList ++ round offers ks := by
  rw [round, List.filterMap_cons, round]
  cases offers k <;> rfl

section Part

variable [DecidableEq K]

/-- What of a merged sequence is from the queue of `k`. -/
def part (k : K) (l : List (K × M)) : List M := (l.filter (·.1 = k)).map Prod.snd

theorem part_append (k : K) (l l' : List (K × M)) : part k (l ++ l') = part k l ++ part k l' := by
  rw [part, List.filter_append, List.map_append, part, part]

theorem part_concat (k : K) (l : List (K × M)) (x : K × M) :
    part k (l ++ [x]) = part k l ++ if x.1 = k then [x.2] else [] := by
  rw [part_append]
  by_cases hx : x.1 = k <;> simp [part, hx]

theorem mem_part {k : K} {m : M} {l : List (K × M)} : m ∈ part k l ↔ (k, m) ∈ l := by
  simp [part]

theorem part_round (offers : K → Option M) {ks : List K} (hks : ks.Nodup) (k : K) :
    part k (round offers ks) = if k ∈ ks then (offers k).toList else [] := by
  induction ks with
  | nil => rfl
  | cons k' ks ih =>
      obtain ⟨hnotMem, hnodup⟩ := List.nodup_cons.mp hks
      rw [round_cons, part_append, ih hnodup]
      by_cases hk : k' = k
      · subst hk
        rw [if_neg hnotMem, if_pos List.mem_cons_self]
        cases hoffer : offers k' <;> simp [part]
      · have hmem : k ∈ k' :: ks ↔ k ∈ ks := by simp [Ne.symm hk]
        have hother : part k ((offers k').map (k', ·)).toList = [] := by
          cases offers k' <;> simp [part, hk]
        rw [hother, List.nil_append]
        simp only [hmem]

/-- What decides is the last of its own queue. -/
theorem exists_last_part {l : List (K × M)} (h : last f (l.map Prod.snd) = some a) :
    ∃ k, last f (part k l) = some a := by
  induction l using List.reverseRecOn with
  | nil => cases h
  | append_singleton l x ih =>
      rw [List.map_append, List.map_singleton, last_concat] at h
      cases hx : f x.2 with
      | some b =>
          rw [hx] at h
          refine ⟨x.1, ?_⟩
          rw [part_concat, if_pos rfl, last_concat, hx]
          exact h
      | none =>
          rw [hx] at h
          obtain ⟨k, hk⟩ := ih h
          refine ⟨k, ?_⟩
          rw [part_concat]
          split
          · rw [last_concat, hx]
            exact hk
          · rw [List.append_nil]
            exact hk

theorem last_part_eq_none {l : List (K × M)} (h : last f (l.map Prod.snd) = none) (k : K) :
    last f (part k l) = none := by
  rw [last, List.getLast?_eq_none_iff, List.filterMap_eq_nil_iff] at h ⊢
  intro m hm
  exact h m (List.mem_map.mpr ⟨(k, m), mem_part.mp hm, rfl⟩)

end Part

end Merging
