/-
# `Theory.Handles` — handles that are opened, used and closed

A handle is a name that an environment gives out: a file descriptor, or the
address of an object.  It may be given out again once it was closed.  The
trace of a program lists what it did to its handles, oldest first.

A trace is disciplined when the program uses and closes only handles it has
open, and every handle given to it was one it did not have open.  A
disciplined trace that leaves nothing open has closed each handle exactly as
often as it was opened, `opened_eq_closed_add`.
-/
import Mathlib.Data.Finset.Card

namespace Handles

variable {D : Type} [DecidableEq D]

inductive Use (D : Type) where
  | opens (d : D)
  | uses (d : D)
  | closes (d : D)
deriving DecidableEq

/-- The handles open after one more step. -/
def Use.after (s : Finset D) : Use D → Finset D
  | .opens d => insert d s
  | .uses _ => s
  | .closes d => s.erase d

/-- The step is one for a handle that is not open, or for one that is. -/
def Use.Valid (s : Finset D) : Use D → Prop
  | .opens d => d ∉ s
  | .uses d => d ∈ s
  | .closes d => d ∈ s

instance (s : Finset D) (op : Use D) : Decidable (op.Valid s) := by
  cases op with
  | opens d => exact inferInstanceAs (Decidable (d ∉ s))
  | uses d => exact inferInstanceAs (Decidable (d ∈ s))
  | closes d => exact inferInstanceAs (Decidable (d ∈ s))

/-- The handles a trace leaves open. -/
def held (ops : List (Use D)) : Finset D := ops.foldl Use.after ∅

/-- Every step of the trace is for a handle in the right state. -/
inductive Disciplined : List (Use D) → Prop
  | nil : Disciplined []
  | snoc {ops : List (Use D)} {op : Use D} :
      Disciplined ops → op.Valid (held ops) → Disciplined (ops ++ [op])

/-- Nothing that was opened is left open, and nothing was closed twice. -/
def Balanced (ops : List (Use D)) : Prop := Disciplined ops ∧ held ops = ∅

@[simp] theorem held_nil : held ([] : List (Use D)) = ∅ := rfl

@[simp] theorem held_snoc (ops : List (Use D)) (op : Use D) :
    held (ops ++ [op]) = op.after (held ops) := by
  rw [held, List.foldl_append]
  rfl

/-! ## How often a handle is opened and closed -/

/-- How often the trace opens `d`. -/
def opened (d : D) (ops : List (Use D)) : Nat := ops.count (.opens d)

/-- How often the trace closes `d`. -/
def closed (d : D) (ops : List (Use D)) : Nat := ops.count (.closes d)

theorem opened_eq_closed_add {ops : List (Use D)} (h : Disciplined ops) (d : D) :
    opened d ops = closed d ops + if d ∈ held ops then 1 else 0 := by
  induction h with
  | nil => rfl
  | @snoc ops op _ hv ih =>
      rw [held_snoc]
      simp only [opened, closed, List.count_append, List.count_singleton] at ih ⊢
      cases op with
      | opens e =>
          by_cases he : e = d
          · subst he
            have hnot : e ∉ held ops := hv
            simp [Use.after, ih, hnot]
          · simp [Use.after, ih, he, Ne.symm he]
      | uses e => exact ih
      | closes e =>
          by_cases he : e = d
          · subst he
            have hmem : e ∈ held ops := hv
            simp [Use.after, ih, hmem]
          · simp [Use.after, ih, he, Ne.symm he]

/-- Every handle of a balanced trace was closed as often as it was opened. -/
theorem Balanced.opened_eq_closed {ops : List (Use D)} (h : Balanced ops) (d : D) :
    opened d ops = closed d ops := by
  rw [opened_eq_closed_add h.1 d, h.2]
  simp

/-- Closing the only handle that is open ends a trace well. -/
theorem balanced_snoc_closes {ops : List (Use D)} {d : D} (h : Disciplined ops)
    (hheld : held ops = {d}) : Balanced (ops ++ [.closes d]) := by
  refine ⟨.snoc h ?_, ?_⟩
  · rw [hheld]
    exact Finset.mem_singleton_self d
  · rw [held_snoc, hheld]
    exact Finset.erase_singleton d

/-- A trace that leaves something open is not balanced. -/
theorem not_balanced_of_mem {ops : List (Use D)} {d : D} (h : d ∈ held ops) : ¬ Balanced ops := by
  rintro ⟨_, hempty⟩
  rw [hempty] at h
  exact Finset.notMem_empty d h

/-! ## Closing several -/

/-- The trace that closes each of `ds`. -/
def closing (ds : List D) : List (Use D) := ds.map .closes

theorem held_append_closing (ops : List (Use D)) (ds : List D) :
    held (ops ++ closing ds) = held ops \ ds.toFinset := by
  induction ds generalizing ops with
  | nil => simp [closing]
  | cons d ds ih =>
      have happend : ops ++ closing (d :: ds) = (ops ++ [.closes d]) ++ closing ds := by
        simp [closing]
      rw [happend, ih, held_snoc, Use.after, List.toFinset_cons, Finset.sdiff_insert,
        Finset.erase_sdiff_comm]

/-- Different open handles may all be closed. -/
theorem disciplined_append_closing {ops : List (Use D)} {ds : List D} (h : Disciplined ops)
    (hnodup : ds.Nodup) (hheld : ∀ d ∈ ds, d ∈ held ops) : Disciplined (ops ++ closing ds) := by
  induction ds generalizing ops with
  | nil =>
      rw [closing, List.map_nil, List.append_nil]
      exact h
  | cons d ds ih =>
      have happend : ops ++ closing (d :: ds) = (ops ++ [.closes d]) ++ closing ds := by
        simp [closing]
      obtain ⟨hnot, hnodup⟩ := List.nodup_cons.mp hnodup
      rw [happend]
      refine ih (.snoc h (hheld d List.mem_cons_self)) hnodup ?_
      intro e he
      rw [held_snoc]
      refine Finset.mem_erase.mpr ⟨?_, hheld e (List.mem_cons_of_mem d he)⟩
      rintro rfl
      exact hnot he

theorem closed_append_closing (d : D) (ops : List (Use D)) {ds : List D} (h : ds.Nodup) :
    closed d (ops ++ closing ds) = closed d ops + if d ∈ ds then 1 else 0 := by
  have hcount : (closing ds).count (.closes d) = ds.count d :=
    List.count_map_of_injective ds Use.closes (fun _ _ heq => Use.closes.inj heq) d
  rw [closed, List.count_append, hcount, List.Nodup.count h]
  rfl

/-! ## The environment -/

/-- What gives out the handles: never one that is open. -/
structure Allocator (D : Type) [DecidableEq D] where
  next : List (Use D) → D
  fresh : ∀ ops, next ops ∉ held ops

theorem disciplined_opens {ops : List (Use D)} (kernel : Allocator D) (h : Disciplined ops) :
    Disciplined (ops ++ [.opens (kernel.next ops)]) :=
  .snoc h (kernel.fresh ops)

/-- The lowest number from `n` on that is not in `s`, if it is among the first
`fuel` of them. -/
def lowestFrom (s : Finset Nat) : Nat → Nat → Nat
  | 0, n => n
  | fuel + 1, n => if n ∈ s then lowestFrom s fuel (n + 1) else n

theorem lowestFrom_not_mem {s : Finset Nat} {fuel n : Nat}
    (h : (s.filter fun i => n ≤ i).card ≤ fuel) : lowestFrom s fuel n ∉ s := by
  induction fuel generalizing n with
  | zero =>
      intro hmem
      have hempty := Finset.card_eq_zero.mp (Nat.le_zero.mp h)
      exact Finset.notMem_empty n (hempty ▸ Finset.mem_filter.mpr ⟨hmem, Nat.le_refl n⟩)
  | succ fuel ih =>
      rw [lowestFrom]
      split
      · rename_i hmem
        refine ih ?_
        have hlt : (s.filter fun i => n + 1 ≤ i) ⊂ s.filter fun i => n ≤ i := by
          refine Finset.ssubset_iff_subset_ne.mpr ⟨?_, ?_⟩
          · intro i hi
            obtain ⟨hi, hle⟩ := Finset.mem_filter.mp hi
            exact Finset.mem_filter.mpr ⟨hi, by omega⟩
          · intro heq
            have hn : n ∈ s.filter fun i => n + 1 ≤ i :=
              heq ▸ Finset.mem_filter.mpr ⟨hmem, Nat.le_refl n⟩
            have hle := (Finset.mem_filter.mp hn).2
            omega
        have hcard := Finset.card_lt_card hlt
        omega
      · assumption

theorem mem_of_lt_lowestFrom {s : Finset Nat} {fuel n m : Nat} (hle : n ≤ m)
    (h : m < lowestFrom s fuel n) : m ∈ s := by
  induction fuel generalizing n with
  | zero =>
      rw [lowestFrom] at h
      omega
  | succ fuel ih =>
      rw [lowestFrom] at h
      split at h
      · rename_i hmem
        rcases Nat.eq_or_lt_of_le hle with rfl | hlt
        · exact hmem
        · exact ih hlt h
      · omega

/-- The lowest free number, as a kernel chooses its descriptors; those below
`base` are taken by others. -/
def Allocator.lowest (base : Nat) : Allocator Nat where
  next ops := lowestFrom (held ops) (held ops).card base
  fresh _ := lowestFrom_not_mem (Finset.card_le_card (Finset.filter_subset _ _))

/-! ## Owners -/

/-- The trace is disciplined, and what it leaves open is in the hands of its
owners, each handle once. -/
structure Accounts (ops : List (Use D)) (owned : List D) : Prop where
  disciplined : Disciplined ops
  nodup : owned.Nodup
  held_eq : held ops = owned.toFinset

section Accounts

variable {ops : List (Use D)} {owned owned' lost : List D} {d : D}

/-- Every handle was closed as often as it was opened, if nobody owns it, and
once less if somebody does. -/
theorem Accounts.opened_eq (h : Accounts ops owned) (d : D) :
    opened d ops = closed d ops + if d ∈ owned then 1 else 0 := by
  rw [opened_eq_closed_add h.disciplined, h.held_eq]
  simp only [List.mem_toFinset]

theorem accounts_nil : Accounts ([] : List (Use D)) [] := ⟨.nil, .nil, rfl⟩

theorem Accounts.perm (h : Accounts ops owned) (hperm : owned.Perm owned') :
    Accounts ops owned' where
  disciplined := h.disciplined
  nodup := hperm.nodup_iff.mp h.nodup
  held_eq := by
    rw [h.held_eq]
    exact List.toFinset_eq_of_perm _ _ hperm

theorem Accounts.opens (h : Accounts ops owned) (kernel : Allocator D) :
    Accounts (ops ++ [.opens (kernel.next ops)]) (kernel.next ops :: owned) where
  disciplined := disciplined_opens kernel h.disciplined
  nodup := by
    refine List.nodup_cons.mpr ⟨?_, h.nodup⟩
    intro hmem
    refine kernel.fresh ops ?_
    rw [h.held_eq]
    exact List.mem_toFinset.mpr hmem
  held_eq := by
    rw [held_snoc, Use.after, h.held_eq, List.toFinset_cons]

theorem Accounts.closing {ds : List D} (h : Accounts ops (ds ++ owned)) :
    Accounts (ops ++ closing ds) owned where
  disciplined := by
    refine disciplined_append_closing h.disciplined (List.nodup_append.mp h.nodup).1 ?_
    intro d hd
    rw [h.held_eq]
    exact List.mem_toFinset.mpr (List.mem_append_left _ hd)
  nodup := (List.nodup_append.mp h.nodup).2.1
  held_eq := by
    have hdisjoint : Disjoint owned.toFinset ds.toFinset := by
      rw [Finset.disjoint_left]
      intro d hd hds
      exact (List.nodup_append.mp h.nodup).2.2 d (List.mem_toFinset.mp hds) d
        (List.mem_toFinset.mp hd) rfl
    rw [held_append_closing, h.held_eq, List.toFinset_append, Finset.union_sdiff_left]
    exact Finset.sdiff_eq_self_of_disjoint hdisjoint

theorem Accounts.closes (h : Accounts ops (d :: owned)) :
    Accounts (ops ++ [.closes d]) owned := by
  have hone : Accounts ops ([d] ++ owned) := h
  exact hone.closing

/-- A handle that is closed twice in a row. -/
theorem not_disciplined_closes_closes (ops : List (Use D)) (d : D) :
    ¬ Disciplined (ops ++ [.closes d] ++ [.closes d]) := by
  intro h
  generalize hall : ops ++ [.closes d] ++ [.closes d] = all at h
  cases h with
  | nil => simp at hall
  | @snoc before op _ hvalid =>
      obtain ⟨rfl, hop⟩ := List.append_inj' hall rfl
      cases hop
      have hmem : d ∈ held (ops ++ [.closes d]) := hvalid
      rw [held_snoc] at hmem
      exact Finset.notMem_erase d _ hmem

/-- With handles that were lost the owners account for the rest only. -/
theorem Accounts.iff_lost_eq_nil (h : Accounts ops (lost ++ owned)) :
    Accounts ops owned ↔ lost = [] := by
  constructor
  · intro h'
    have hheld := h.held_eq
    rw [h'.held_eq, List.toFinset_append] at hheld
    rw [List.eq_nil_iff_forall_not_mem]
    intro d hd
    have hmem : d ∈ owned.toFinset := by
      rw [hheld]
      exact Finset.mem_union_left _ (List.mem_toFinset.mpr hd)
    exact (List.nodup_append.mp h.nodup).2.2 d hd d (List.mem_toFinset.mp hmem) rfl
  · rintro rfl
    exact h

end Accounts

end Handles
