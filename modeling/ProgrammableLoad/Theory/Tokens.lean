/-
# `Theory.Tokens` — tables whose keys are drawn from a counter

A table gives out a token for everything that is put into it, and takes it out
again against the token.  The tokens come from a counter of fixed width that is
incremented until its value will do, `draw`; the counter wraps around, so that
every value comes up in one period of it, and a draw that does not end within
a period never ends, `draw_eq_none_iff`.

What the table has to hold follows from the history of what was added to it
and removed, `Installed`.  It does as long as every token is new to the table
when it is given out.
-/
import Mathlib.Data.FinEnum
import ProgrammableLoad.Theory.Table

namespace Tokens

/-! ## The counter -/

section Draw

variable {w : Nat} {rejects : BitVec w → Bool}

/-- `do { token = ++counter; } while(rejects(token));`, if it ends within the
given number of turns. -/
def draw (rejects : BitVec w → Bool) : Nat → BitVec w → Option (BitVec w)
  | 0, _ => none
  | turns + 1, counter =>
      if rejects (counter + 1) then
        draw rejects turns (counter + 1)
      else
        some (counter + 1)

theorem draw_accepted {turns : Nat} {counter token : BitVec w}
    (h : draw rejects turns counter = some token) : rejects token = false := by
  induction turns generalizing counter with
  | zero => cases h
  | succ turns ih =>
      rw [draw] at h
      split at h
      · exact ih h
      · rename_i haccepts
        cases h
        exact Bool.eq_false_iff.mpr haccepts

theorem draw_eq_none_of_rejects (h : ∀ token, rejects token = true) (turns : Nat)
    (counter : BitVec w) : draw rejects turns counter = none := by
  induction turns generalizing counter with
  | zero => rfl
  | succ turns ih =>
      rw [draw, if_pos (h _)]
      exact ih _

theorem rejects_of_draw_eq_none {turns i : Nat} {counter : BitVec w}
    (h : draw rejects turns counter = none) (hi : i < turns) :
    rejects (counter + 1 + BitVec.ofNat w i) = true := by
  induction turns generalizing counter i with
  | zero => exact absurd hi (Nat.not_lt_zero i)
  | succ turns ih =>
      rw [draw] at h
      split at h
      · rename_i hrejects
        cases i with
        | zero => simpa using hrejects
        | succ i =>
            have hnext := ih h (Nat.lt_of_succ_lt_succ hi)
            have hsum : counter + 1 + BitVec.ofNat w (i + 1)
                = counter + 1 + 1 + BitVec.ofNat w i := by
              rw [BitVec.ofNat_add, BitVec.add_comm (BitVec.ofNat w i), ← BitVec.add_assoc]
              rfl
            rwa [hsum]
      · cases h

/-- In one period of the counter all its values come up. -/
theorem draw_eq_none_iff {counter : BitVec w} :
    draw rejects (2 ^ w) counter = none ↔ ∀ token, rejects token = true := by
  constructor
  · intro h token
    have hi : (token - (counter + 1)).toNat < 2 ^ w := BitVec.isLt _
    have hrejects := rejects_of_draw_eq_none h hi
    rwa [BitVec.ofNat_toNat, BitVec.setWidth_eq, BitVec.add_comm, BitVec.sub_add_cancel]
      at hrejects
  · intro h
    exact draw_eq_none_of_rejects h _ _

/-- A draw that does not end in one period never does. -/
theorem draw_eq_none {counter : BitVec w} (h : draw rejects (2 ^ w) counter = none)
    (turns : Nat) : draw rejects turns counter = none :=
  draw_eq_none_of_rejects (draw_eq_none_iff.mp h) _ _

end Draw

/-! ## Free tokens -/

section Free

variable {w : Nat} {V : Type}

abbrev Callbacks (w : Nat) (V : Type) := Table.Entries (BitVec w) V

/-- The tokens that may not be given out: zero, and those in the table. -/
def taken (m : Callbacks w V) (token : BitVec w) : Bool := token = 0 || token ∈ m

theorem taken_eq_false_iff {m : Callbacks w V} {token : BitVec w} :
    taken m token = false ↔ token ≠ 0 ∧ token ∉ m := by
  simp [taken]

/-- As many tokens are taken as there are, if and only if all of them are. -/
theorem forall_taken_iff {m : Callbacks w V} (h : 0 ∉ m) :
    (∀ token, taken m token = true) ↔ 2 ^ w ≤ m.entries.length + 1 := by
  classical
  have hcard : (insert 0 m.keys.toFinset).card = m.entries.length + 1 := by
    have hzero : (0 : BitVec w) ∉ m.keys.toFinset := by
      rw [List.mem_toFinset, ← AList.mem_keys]
      exact h
    rw [Finset.card_insert_of_notMem hzero, List.toFinset_card_of_nodup m.keys_nodup]
    exact congrArg (· + 1) (List.length_map _)
  have hall : (∀ token, taken m token = true) ↔ insert 0 m.keys.toFinset = Finset.univ := by
    rw [Finset.eq_univ_iff_forall]
    refine forall_congr' fun token => ?_
    rw [Finset.mem_insert, List.mem_toFinset, ← AList.mem_keys, taken, Bool.or_eq_true,
      decide_eq_true_iff, decide_eq_true_iff]
  have huniv : Fintype.card (BitVec w) = 2 ^ w := by
    rw [← FinEnum.card_eq_fintypeCard, FinEnum.card_bitVec]
  rw [hall, ← Finset.card_eq_iff_eq_univ, hcard, huniv]
  constructor
  · exact fun heq => heq.ge
  · intro hle
    refine Nat.le_antisymm ?_ hle
    rw [← hcard, ← huniv]
    exact Finset.card_le_univ _

/-- The draw of a token ends if and only if one is free. -/
theorem draw_taken_isSome_iff {m : Callbacks w V} (h : 0 ∉ m) (counter : BitVec w) :
    (∃ token, draw (taken m) (2 ^ w) counter = some token) ↔
      m.entries.length + 1 < 2 ^ w := by
  rw [← Option.isSome_iff_exists, ← Option.ne_none_iff_isSome, Ne, draw_eq_none_iff,
    forall_taken_iff h, Nat.not_le]

end Free

/-! ## Histories -/

inductive Entry (K V : Type) where
  | added (k : K) (v : V)
  | removed (k : K)

section History

variable {K V : Type} {history : List (Entry K V)} {k k' : K} {v v' : V}

/-- `v` was added under `k`, and `k` was not removed since. -/
def Installed (history : List (Entry K V)) (k : K) (v : V) : Prop :=
  ∃ before since, history = before ++ .added k v :: since ∧ .removed k ∉ since

theorem not_installed_nil : ¬ Installed ([] : List (Entry K V)) k v := by
  rintro ⟨before, since, h, _⟩
  simp at h

theorem installed_snoc {e : Entry K V} :
    Installed (history ++ [e]) k v ↔ e = .added k v ∨ Installed history k v ∧ e ≠ .removed k := by
  constructor
  · rintro ⟨before, since, h, hkept⟩
    rcases List.eq_nil_or_concat since with rfl | ⟨since, last, rfl⟩
    · exact .inl (List.singleton_inj.mp (List.append_inj' h rfl).2)
    · rw [List.concat_eq_append, ← List.cons_append, ← List.append_assoc] at h
      obtain ⟨rfl, hlast⟩ := List.append_inj' h rfl
      obtain rfl := List.singleton_inj.mp hlast
      refine .inr ⟨⟨before, since, rfl, ?_⟩, ?_⟩
      · exact fun hmem => hkept (by simp [hmem])
      · rintro rfl
        exact hkept (by simp)
  · rintro (rfl | ⟨⟨before, since, rfl, hkept⟩, he⟩)
    · exact ⟨history, [], rfl, List.not_mem_nil⟩
    · refine ⟨before, since ++ [e], by simp, ?_⟩
      rw [List.mem_append, List.mem_singleton]
      rintro (hmem | hmem)
      · exact hkept hmem
      · exact he hmem.symm

theorem installed_snoc_added :
    Installed (history ++ [.added k' v']) k v ↔ (k = k' ∧ v = v') ∨ Installed history k v := by
  simp [installed_snoc, eq_comm]

theorem installed_snoc_removed :
    Installed (history ++ [.removed k']) k v ↔ k ≠ k' ∧ Installed history k v := by
  simp [installed_snoc, and_comm, eq_comm]

end History

/-! ## Tables -/

section Tables

variable {K V : Type} [DecidableEq K] {m : Table.Entries K V} {history : List (Entry K V)}
  {k : K} {v : V}

/-- `std::unordered_map::emplace`: keeps the entry that is already there. -/
def emplace (m : Table.Entries K V) (k : K) (v : V) : Table.Entries K V :=
  if k ∈ m then m else m.insert k v

theorem lookup_emplace_eq_some_iff {k' : K} {v' : V} (hk : k ∉ m) :
    (emplace m k v).lookup k' = some v' ↔ (k' = k ∧ v' = v) ∨ m.lookup k' = some v' := by
  rw [emplace, if_neg hk, Table.lookup_insert_eq_some_iff hk]

/-- The table holds what is installed, and nothing else. -/
def Holds (m : Table.Entries K V) (history : List (Entry K V)) : Prop :=
  ∀ k v, m.lookup k = some v ↔ Installed history k v

theorem holds_empty : Holds (∅ : Table.Entries K V) [] := by
  intro k v
  exact iff_of_false (by simp) not_installed_nil

theorem Holds.emplace (h : Holds m history) (hk : k ∉ m) (v : V) :
    Holds (emplace m k v) (history ++ [.added k v]) := by
  intro k' v'
  rw [lookup_emplace_eq_some_iff hk, installed_snoc_added, h]

theorem Holds.erase (h : Holds m history) (k : K) :
    Holds (m.erase k) (history ++ [.removed k]) := by
  intro k' v'
  rw [Table.lookup_erase_eq_some_iff, installed_snoc_removed, h]

theorem Holds.mem_iff (h : Holds m history) : k ∈ m ↔ ∃ v, Installed history k v := by
  rw [← AList.lookup_isSome, Option.isSome_iff_exists]
  exact exists_congr fun v => h k v

theorem Holds.notMem_iff (h : Holds m history) : k ∉ m ↔ ∀ v, ¬ Installed history k v := by
  rw [h.mem_iff, not_exists]

/-- The entries a loop over the table visits. -/
theorem Holds.mem_entries_iff (h : Holds m history) :
    (⟨k, v⟩ : Sigma fun _ : K => V) ∈ m.entries ↔ Installed history k v := by
  rw [← h, ← AList.mem_lookup_iff, Option.mem_def]

/-- Nothing else comes into the table. -/
theorem notMem_emplace {k' : K} (h : k' ∉ m) (hk : k ≠ k') : k' ∉ emplace m k v := by
  rw [emplace]
  split
  · exact h
  · rw [AList.mem_insert, not_or]
    exact ⟨hk.symm, h⟩

theorem notMem_erase {k' : K} (h : k' ∉ m) : k' ∉ m.erase k := by
  rw [AList.mem_erase]
  exact fun hmem => h hmem.2

end Tables

end Tokens
