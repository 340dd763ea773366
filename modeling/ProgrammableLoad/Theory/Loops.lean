/-
# `Theory.Loops` — loops over a list

A loop over a list runs a body on each element and stops at the first element
whose body faults.  How it ends is therefore decided at one split of the list:
`forM_run_eq_ok_append` is about a loop that gets past it and
`forM_run_eq_error_iff` about one that faults there.
-/
import ProgrammableLoad.Theory.Program

namespace Program

variable {ε σ α : Type} {f : α → EStateM ε σ PUnit}

/-- The splits of a list with a first element: at this one, or behind it. -/
theorem forall_split_cons {P : List α → α → List α → Prop} {a : α} {l : List α} :
    (∀ before x after, a :: l = before ++ x :: after → P before x after) ↔
      P [] a l ∧ ∀ before x after, l = before ++ x :: after → P (a :: before) x after := by
  constructor
  · intro h
    refine ⟨h [] a l rfl, ?_⟩
    rintro before x after rfl
    exact h (a :: before) x after rfl
  · rintro ⟨hhead, htail⟩ (_ | ⟨b, before⟩) x after hl
    · cases hl
      exact hhead
    · cases hl
      exact htail before x after rfl

theorem forM_nil_run_eq_ok {s t : σ} :
    (forM [] f).run s = .ok () t ↔ t = s := by
  constructor
  · intro h
    cases h
    rfl
  · rintro rfl
    rfl

theorem forM_cons_run_eq_ok {a : α} {l : List α} {s t : σ} :
    (forM (a :: l) f).run s = .ok () t ↔
      ∃ u, (f a).run s = .ok () u ∧ (forM l f).run u = .ok () t := by
  rw [List.forM_cons, run_bind_eq_ok]
  constructor
  · rintro ⟨_, u, ha, hl⟩
    exact ⟨u, ha, hl⟩
  · rintro ⟨u, ha, hl⟩
    exact ⟨(), u, ha, hl⟩

theorem forM_run_eq_ok_append {before after : List α} {s t : σ} :
    (forM (before ++ after) f).run s = .ok () t ↔
      ∃ u, (forM before f).run s = .ok () u ∧ (forM after f).run u = .ok () t := by
  induction before generalizing s with
  | nil =>
      constructor
      · intro h
        exact ⟨s, rfl, h⟩
      · rintro ⟨u, hu, h⟩
        cases forM_nil_run_eq_ok.mp hu
        exact h
  | cons a before ih =>
      rw [List.cons_append, forM_cons_run_eq_ok]
      constructor
      · rintro ⟨v, ha, h⟩
        obtain ⟨u, hbefore, hafter⟩ := ih.mp h
        exact ⟨u, forM_cons_run_eq_ok.mpr ⟨v, ha, hbefore⟩, hafter⟩
      · rintro ⟨u, h, hafter⟩
        obtain ⟨v, ha, hbefore⟩ := forM_cons_run_eq_ok.mp h
        exact ⟨v, ha, ih.mpr ⟨u, hbefore, hafter⟩⟩

theorem forM_cons_run_eq_error {a : α} {l : List α} {s t : σ} {e : ε} :
    (forM (a :: l) f).run s = .error e t ↔
      (f a).run s = .error e t ∨
        ∃ u, (f a).run s = .ok () u ∧ (forM l f).run u = .error e t := by
  rw [List.forM_cons, EStateM.run_bind]
  cases ha : (f a).run s with
  | ok x u =>
      constructor
      · intro h
        exact .inr ⟨u, rfl, h⟩
      · rintro (h | ⟨v, hv, h⟩)
        · cases h
        · cases hv
          exact h
  | error e' u =>
      constructor
      · intro h
        cases h
        exact .inl rfl
      · rintro (h | ⟨v, hv, h⟩)
        · cases h
          rfl
        · cases hv

/-- A loop faults at the first element whose body does. -/
theorem forM_run_eq_error_iff {l : List α} {s t : σ} {e : ε} :
    (forM l f).run s = .error e t ↔
      ∃ before a after u, l = before ++ a :: after ∧ (forM before f).run s = .ok () u ∧
        (f a).run u = .error e t := by
  induction l generalizing s with
  | nil =>
      constructor
      · intro h
        cases h
      · rintro ⟨before, a, after, u, hl, _⟩
        simp at hl
  | cons b l ih =>
      rw [forM_cons_run_eq_error]
      constructor
      · rintro (hb | ⟨u, hb, hl⟩)
        · exact ⟨[], b, l, s, rfl, rfl, hb⟩
        · obtain ⟨before, a, after, v, rfl, hbefore, ha⟩ := ih.mp hl
          exact ⟨b :: before, a, after, v, rfl, forM_cons_run_eq_ok.mpr ⟨u, hb, hbefore⟩, ha⟩
      · rintro ⟨_ | ⟨b', before⟩, a, after, u, hl, hbefore, ha⟩
        · cases hl
          cases forM_nil_run_eq_ok.mp hbefore
          exact .inl ha
        · cases hl
          obtain ⟨v, hb, hbefore⟩ := forM_cons_run_eq_ok.mp hbefore
          exact .inr ⟨v, hb, ih.mpr ⟨before, a, after, u, rfl, hbefore, ha⟩⟩

/-- A loop returns if all turns of it do, where these do not depend on the state. -/
theorem forM_returns_iff {taken : α → Prop} {l : List α}
    (h : ∀ a s, (∃ t, (f a).run s = .ok () t) ↔ taken a) {s : σ} :
    (∃ t, (forM l f).run s = .ok () t) ↔ ∀ a ∈ l, taken a := by
  induction l generalizing s with
  | nil => exact iff_of_true ⟨s, rfl⟩ nofun
  | cons a l ih =>
      rw [List.forall_mem_cons]
      constructor
      · rintro ⟨t, ht⟩
        obtain ⟨u, ha, hl⟩ := forM_cons_run_eq_ok.mp ht
        exact ⟨(h a s).mp ⟨u, ha⟩, ih.mp ⟨t, hl⟩⟩
      · rintro ⟨ha, hl⟩
        obtain ⟨u, hu⟩ := (h a s).mpr ha
        obtain ⟨t, ht⟩ := ih.mpr hl
        exact ⟨t, forM_cons_run_eq_ok.mpr ⟨u, hu, ht⟩⟩

theorem forM_run_of_skipped {l : List α} (h : ∀ a ∈ l, ∀ s, (f a).run s = .ok () s) (s : σ) :
    (forM l f).run s = .ok () s := by
  induction l with
  | nil => rfl
  | cons a l ih =>
      obtain ⟨ha, hl⟩ := List.forall_mem_cons.mp h
      exact forM_cons_run_eq_ok.mpr ⟨s, ha s, ih hl⟩

/-- A loop that does something for one element only. -/
theorem forM_run_eq_of_skipped {before after : List α} {a : α}
    (hbefore : ∀ b ∈ before, ∀ s, (f b).run s = .ok () s)
    (hafter : ∀ b ∈ after, ∀ s, (f b).run s = .ok () s) (s : σ) :
    (forM (before ++ a :: after) f).run s = (f a).run s := by
  cases ha : (f a).run s with
  | ok x t =>
      refine forM_run_eq_ok_append.mpr ⟨s, forM_run_of_skipped hbefore s, ?_⟩
      exact forM_cons_run_eq_ok.mpr ⟨t, ha, forM_run_of_skipped hafter t⟩
  | error e t =>
      exact forM_run_eq_error_iff.mpr
        ⟨before, a, after, s, rfl, forM_run_of_skipped hbefore s, ha⟩

/-- What a loop comes to is in `P`: every element before which all others are
taken. -/
def WhileTaken (taken P : α → Prop) (l : List α) : Prop :=
  ∀ before a after, l = before ++ a :: after → (∀ b ∈ before, taken b) → P a

end Program
