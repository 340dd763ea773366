/-
# `Theory.Relay` — a relay that collects what arrives and passes it on

What arrives is held until there is enough of it.  Then all of it is taken as
one batch, which goes out whole, goes out short of some elements at its end, or
is lost; or the batch is not taken after all and what was held stays.

A `Relay` carries its own account: what arrived is the batches that were taken,
one after the other, and what is still held.  So what went out is in order and
goes out at most once, `out_sublist`, and nothing is missing exactly if every
batch went out whole, `intact_iff`.
-/
import Mathlib.Data.List.Sublists

namespace Relays

variable {α : Type}

/-- What becomes of a batch.  `passes short` leaves out that many elements at
its end. -/
inductive Fate where
  | keeps
  | loses
  | passes (short : Nat)
deriving DecidableEq

/-- What goes out of a batch, if anything does. -/
def Fate.out : Fate → List α → Option (List α)
  | .passes short, batch => some (batch.take (batch.length - short))
  | .keeps, _ => none
  | .loses, _ => none

/-- A relay with all that arrived, what it holds, and the batches it took with
what became of them; it takes no batch of fewer than `low` elements. -/
structure Relay (α : Type) (low : Nat) where
  arrived : List α
  held : List α
  taken : List (List α × Fate)
  accounts : arrived = (taken.map Prod.fst).flatten ++ held
  enough : ∀ batch fate, (batch, fate) ∈ taken → low ≤ batch.length

/-! ## One batch -/

theorem Fate.length_out_le (fate : Fate) (batch : List α) :
    ((fate.out batch).getD []).length ≤ batch.length := by
  cases fate with
  | keeps => exact Nat.zero_le _
  | loses => exact Nat.zero_le _
  | passes short =>
      show (batch.take (batch.length - short)).length ≤ batch.length
      rw [List.length_take]
      exact Nat.min_le_right _ _

theorem Fate.out_sublist (fate : Fate) (batch : List α) :
    ((fate.out batch).getD []).Sublist batch := by
  cases fate with
  | keeps => exact List.nil_sublist batch
  | loses => exact List.nil_sublist batch
  | passes short => exact List.take_sublist _ batch

/-- Of a batch with anything in it something is missing unless it passes whole. -/
theorem Fate.eq_passes_zero {fate : Fate} {batch : List α} (hbatch : 0 < batch.length)
    (h : ((fate.out batch).getD []).length = batch.length) : fate = .passes 0 := by
  cases fate with
  | keeps => exact absurd h hbatch.ne
  | loses => exact absurd h hbatch.ne
  | passes short =>
      have htake : (batch.take (batch.length - short)).length = batch.length := h
      rw [List.length_take] at htake
      have hshort : short = 0 := by omega
      rw [hshort]

/-! ## A list of batches -/

/-- What went out of a list of batches, in order. -/
def outs (taken : List (List α × Fate)) : List (List α) :=
  taken.filterMap fun x => x.2.out x.1

theorem outs_append (taken later : List (List α × Fate)) :
    outs (taken ++ later) = outs taken ++ outs later := List.filterMap_append

theorem flatten_outs_cons (batch : List α) (fate : Fate) (taken : List (List α × Fate)) :
    (outs ((batch, fate) :: taken)).flatten
      = (fate.out batch).getD [] ++ (outs taken).flatten := by
  cases h : fate.out batch with
  | none => simp [outs, h]
  | some part => simp [outs, h]

theorem flatten_outs_sublist (taken : List (List α × Fate)) :
    (outs taken).flatten.Sublist (taken.map Prod.fst).flatten := by
  induction taken with
  | nil => exact List.Sublist.refl _
  | cons x taken ih =>
      rw [flatten_outs_cons]
      exact (x.2.out_sublist x.1).append ih

theorem flatten_outs_of_whole {taken : List (List α × Fate)}
    (h : ∀ batch fate, (batch, fate) ∈ taken → fate = .passes 0) :
    (outs taken).flatten = (taken.map Prod.fst).flatten := by
  induction taken with
  | nil => rfl
  | cons x taken ih =>
      obtain ⟨batch, fate⟩ := x
      have hfate : fate = .passes 0 := h batch fate List.mem_cons_self
      have hout : (fate.out batch).getD [] = batch := by
        rw [hfate]
        exact List.take_length
      rw [flatten_outs_cons, hout, ih fun b f hb => h b f (List.mem_cons_of_mem _ hb)]
      rfl

theorem whole_of_flatten_outs {taken : List (List α × Fate)}
    (henough : ∀ batch fate, (batch, fate) ∈ taken → 0 < batch.length)
    (h : (outs taken).flatten.length = (taken.map Prod.fst).flatten.length) :
    ∀ batch fate, (batch, fate) ∈ taken → fate = .passes 0 := by
  induction taken with
  | nil =>
      intro batch fate hmem
      cases hmem
  | cons x taken ih =>
      obtain ⟨first, fateFirst⟩ := x
      simp only [flatten_outs_cons, List.map_cons, List.flatten_cons, List.length_append] at h
      -- neither part is longer than what it is a part of
      have hfirst : ((fateFirst.out first).getD []).length ≤ first.length :=
        fateFirst.length_out_le first
      have hrest : (outs taken).flatten.length ≤ (taken.map Prod.fst).flatten.length :=
        (flatten_outs_sublist taken).length_le
      intro batch fate hmem
      rcases List.mem_cons.mp hmem with heq | hlater
      · cases heq
        refine Fate.eq_passes_zero (henough first fateFirst List.mem_cons_self) ?_
        omega
      · refine ih ?_ ?_ batch fate hlater
        · intro b f hb
          exact henough b f (List.mem_cons_of_mem _ hb)
        · omega

/-! ## The relay -/

namespace Relay

variable {low : Nat}

def empty (α : Type) (low : Nat) : Relay α low where
  arrived := []
  held := []
  taken := []
  accounts := rfl
  enough _ _ h := nomatch h

def passed (r : Relay α low) : List (List α) := outs r.taken

/-- There is not enough for a batch, or it is not taken. -/
def Stays (r : Relay α low) (items : List α) (fate : Fate) : Prop :=
  (r.held ++ items).length < low ∨ fate = .keeps

instance Stays.decidable (r : Relay α low) (items : List α) (fate : Fate) :
    Decidable (r.Stays items fate) :=
  inferInstanceAs (Decidable (_ ∨ _))

/-- Something arrives, and `fate` is what becomes of the batch if there is
enough for one. -/
def arrive (r : Relay α low) (items : List α) (fate : Fate) : Relay α low :=
  if h : r.Stays items fate then
    { r with
      arrived := r.arrived ++ items
      held := r.held ++ items
      accounts := by rw [r.accounts, List.append_assoc] }
  else
    { arrived := r.arrived ++ items
      held := []
      taken := r.taken ++ [(r.held ++ items, fate)]
      accounts := by
        rw [r.accounts, List.map_append, List.flatten_append]
        simp
      enough := by
        intro batch fate' hmem
        rcases List.mem_append.mp hmem with hold | hnew
        · exact r.enough batch fate' hold
        · cases List.mem_singleton.mp hnew
          exact Nat.not_lt.mp fun hlt => h (.inl hlt) }

variable {r : Relay α low} {items : List α} {fate : Fate}

@[simp] theorem arrived_arrive (r : Relay α low) (items : List α) (fate : Fate) :
    (r.arrive items fate).arrived = r.arrived ++ items := by
  unfold arrive
  split <;> rfl

theorem stays_iff_of_le (h : low ≤ (r.held ++ items).length) :
    r.Stays items fate ↔ fate = .keeps := by
  rw [Stays, or_iff_right (Nat.not_lt.mpr h)]

theorem held_arrive_of_lt (h : (r.held ++ items).length < low) :
    (r.arrive items fate).held = r.held ++ items := by
  rw [arrive, dif_pos (show r.Stays items fate from .inl h)]

theorem passed_arrive_of_lt (h : (r.held ++ items).length < low) :
    (r.arrive items fate).passed = r.passed := by
  rw [arrive, dif_pos (show r.Stays items fate from .inl h)]
  rfl

theorem held_arrive_of_le (h : low ≤ (r.held ++ items).length) :
    (r.arrive items fate).held = if fate = .keeps then r.held ++ items else [] := by
  by_cases hkeeps : fate = .keeps
  · rw [arrive, dif_pos ((stays_iff_of_le h).mpr hkeeps), if_pos hkeeps]
  · rw [arrive, dif_neg fun hstays => hkeeps ((stays_iff_of_le h).mp hstays), if_neg hkeeps]

theorem passed_arrive_of_le (h : low ≤ (r.held ++ items).length) :
    (r.arrive items fate).passed = r.passed ++ (fate.out (r.held ++ items)).toList := by
  by_cases hkeeps : fate = .keeps
  · rw [arrive, dif_pos ((stays_iff_of_le h).mpr hkeeps), hkeeps]
    exact (List.append_nil _).symm
  · have hlast : outs [(r.held ++ items, fate)] = (fate.out (r.held ++ items)).toList := by
      cases hout : fate.out (r.held ++ items) with
      | none => simp [outs, hout]
      | some part => simp [outs, hout]
    rw [arrive, dif_neg fun hstays => hkeeps ((stays_iff_of_le h).mp hstays), passed, outs_append,
      hlast]
    rfl

/-- Where every batch is taken, too little for a batch is held. -/
theorem length_held_arrive_lt (hlow : 0 < low) (h : fate ≠ .keeps) :
    (r.arrive items fate).held.length < low := by
  by_cases hlt : (r.held ++ items).length < low
  · rw [held_arrive_of_lt hlt]
    exact hlt
  · rw [held_arrive_of_le (Nat.not_lt.mp hlt), if_neg h]
    exact hlow

/-- Every batch that was taken went out whole. -/
def Whole (r : Relay α low) : Prop :=
  ∀ batch fate, (batch, fate) ∈ r.taken → fate = .passes 0

theorem whole_empty : (empty α low).Whole := by
  intro batch fate hmem
  cases hmem

/-- A batch that is taken now has to go out whole as well. -/
theorem whole_arrive_iff :
    (r.arrive items fate).Whole ↔ r.Whole ∧ (¬ r.Stays items fate → fate = .passes 0) := by
  by_cases h : r.Stays items fate
  · have htaken : (r.arrive items fate).taken = r.taken := by rw [arrive, dif_pos h]
    rw [Whole, htaken]
    exact ⟨fun hwhole => ⟨hwhole, fun hnot => absurd h hnot⟩, fun hwhole => hwhole.1⟩
  · have htaken : (r.arrive items fate).taken = r.taken ++ [(r.held ++ items, fate)] := by
      rw [arrive, dif_neg h]
    rw [Whole, htaken]
    constructor
    · intro hwhole
      refine ⟨fun batch f hmem => hwhole batch f (List.mem_append_left _ hmem), fun _ => ?_⟩
      exact hwhole _ _ (List.mem_append_right _ List.mem_cons_self)
    · rintro ⟨hold, hnew⟩ batch f hmem
      rcases List.mem_append.mp hmem with hmem | hmem
      · exact hold batch f hmem
      · cases List.mem_singleton.mp hmem
        exact hnew h

/-- What went out and what is held, in the order of the arrivals. -/
theorem out_sublist (r : Relay α low) : (r.passed.flatten ++ r.held).Sublist r.arrived := by
  rw [r.accounts]
  exact (flatten_outs_sublist r.taken).append (List.Sublist.refl _)

/-- Nothing is missing exactly if every batch went out whole. -/
theorem intact_iff (hlow : 0 < low) (r : Relay α low) :
    r.passed.flatten ++ r.held = r.arrived ↔ r.Whole := by
  constructor
  · intro h
    refine whole_of_flatten_outs ?_ ?_
    · intro batch fate hmem
      exact hlow.trans_le (r.enough batch fate hmem)
    · have hlength := congrArg List.length (h.trans r.accounts)
      rw [List.length_append, List.length_append] at hlength
      exact Nat.add_right_cancel hlength
  · intro h
    rw [r.accounts, passed, flatten_outs_of_whole h]

end Relay

end Relays
