/-
# `Cpp.Defined` — evaluations that stay clear of undefined behaviour

A function is defined on an input if no undefined behaviour ends it: it
returns, or it throws.  The lemmas of this file take the question apart along
the structure of the function: a bind is defined if its first part is and its
second part is for what the first returns, and a loop is defined if its body
is on every element that the loop gets to.
-/
import ProgrammableLoad.Theory.Loops
import ProgrammableLoad.Cpp.Fault

namespace Cpp

open Program

variable {σ α β : Type}

/-- No undefined behaviour ends the evaluation. -/
def Defined (x : Except Fault α) : Prop := ∀ op, x ≠ .error (.undefined op)

/-- No undefined behaviour ends the function, called in state `s`. -/
def DefinedFrom (m : EStateM Fault σ α) (s : σ) : Prop :=
  ∀ op t, m.run s ≠ .error (.undefined op) t

/-! ## Evaluations -/

@[simp] theorem defined_ok (a : α) : Defined (.ok a : Except Fault α) := by
  intro op h
  cases h

@[simp] theorem defined_pure (a : α) : Defined (pure a : Except Fault α) := defined_ok a

@[simp] theorem defined_thrown (e : Exception) : Defined (.error (.thrown e) : Except Fault α) := by
  intro op h
  cases h

@[simp] theorem defined_throw (e : Exception) :
    Defined (throw (.thrown e) : Except Fault α) := defined_thrown e

@[simp] theorem not_defined_undefined (op : String) :
    ¬ Defined (.error (.undefined op) : Except Fault α) := by
  intro h
  exact h op rfl

theorem defined_error_iff {e : Fault} :
    Defined (.error e : Except Fault α) ↔ ∀ op, e ≠ .undefined op := by
  simp [Defined]

theorem Defined.of_ok {x : Except Fault α} {a : α} (h : x = .ok a) : Defined x := by
  rw [h]
  exact defined_ok a

theorem defined_bind_iff {x : Except Fault α} {f : α → Except Fault β} :
    Defined (x >>= f) ↔ Defined x ∧ ∀ a, x = .ok a → Defined (f a) := by
  cases x with
  | ok a =>
      constructor
      · intro h
        refine ⟨defined_ok a, ?_⟩
        rintro _ ⟨⟩
        exact h
      · rintro ⟨_, h⟩
        exact h a rfl
  | error e =>
      constructor
      · intro h
        constructor
        · rintro op ⟨⟩
          exact h op rfl
        · intro a ha
          cases ha
      · rintro ⟨h, _⟩ op hop
        cases hop
        exact h op rfl

/-- A bind whose second part is defined or not whatever it is given. -/
theorem defined_bind_iff_of_forall {x : Except Fault α} {f : α → Except Fault β} {P : Prop}
    (hf : ∀ a, Defined (f a) ↔ P) :
    Defined (x >>= f) ↔ Defined x ∧ ((∃ a, x = .ok a) → P) := by
  rw [defined_bind_iff]
  refine and_congr_right fun _ => ?_
  constructor
  · rintro h ⟨a, ha⟩
    exact (hf a).mp (h a ha)
  · intro h a ha
    exact (hf a).mpr (h ⟨a, ha⟩)

/-- A loop that threads a value is defined if its body is wherever the loop gets
to. -/
theorem defined_foldlM_iff {f : β → α → Except Fault β} {l : List α} {b : β} :
    Defined (l.foldlM f b) ↔
      ∀ before a after c, l = before ++ a :: after → before.foldlM f b = .ok c →
        Defined (f c a) := by
  induction l generalizing b with
  | nil => simp
  | cons a' l ih =>
      rw [List.foldlM_cons, defined_bind_iff]
      constructor
      · rintro ⟨hhead, htail⟩ (_ | ⟨x, before⟩) a after c hl hc
        · cases hl
          cases hc
          exact hhead
        · cases hl
          rw [List.foldlM_cons] at hc
          obtain ⟨d, hd, hc⟩ := except_bind_eq_ok.mp hc
          exact ih.mp (htail d hd) before a after c rfl hc
      · intro h
        refine ⟨h [] a' l b rfl rfl, ?_⟩
        intro d hd
        refine ih.mpr ?_
        rintro before a after c rfl hc
        refine h (a' :: before) a after c rfl ?_
        rw [List.foldlM_cons]
        exact except_bind_eq_ok.mpr ⟨d, hd, hc⟩

/-! ## Functions -/

theorem definedFrom_pure (a : α) (s : σ) : DefinedFrom (pure a : EStateM Fault σ α) s := by
  intro op t h
  cases h

theorem definedFrom_thrown (e : Exception) (s : σ) :
    DefinedFrom (throw (.thrown e) : EStateM Fault σ α) s := by
  intro op t h
  cases h

theorem definedFrom_modify (f : σ → σ) (s : σ) :
    DefinedFrom (modify f : EStateM Fault σ PUnit) s := by
  intro op t h
  cases h

theorem DefinedFrom.of_ok {m : EStateM Fault σ α} {s t : σ} {a : α} (h : m.run s = .ok a t) :
    DefinedFrom m s := by
  intro op u hu
  rw [h] at hu
  cases hu

theorem definedFrom_bind_iff {m : EStateM Fault σ α} {f : α → EStateM Fault σ β} {s : σ} :
    DefinedFrom (m >>= f) s ↔
      DefinedFrom m s ∧ ∀ a t, m.run s = .ok a t → DefinedFrom (f a) t := by
  cases hm : m.run s with
  | ok a t =>
      constructor
      · intro h
        refine ⟨DefinedFrom.of_ok hm, ?_⟩
        rintro _ _ ⟨⟩ op u hu
        exact h op u ((run_bind_of_ok hm).trans hu)
      · rintro ⟨_, h⟩ op u hu
        exact h a t rfl op u ((run_bind_of_ok hm).symm.trans hu)
  | error e t =>
      constructor
      · intro h
        constructor
        · intro op u hu
          exact h op u (run_bind_of_error hu)
        · intro a u hu
          cases hu
      · rintro ⟨h, _⟩ op u hu
        rw [run_bind_of_error hm] at hu
        cases hu
        exact h op t hm

theorem definedFrom_ofExcept_bind_iff {x : Except Fault α} {f : α → EStateM Fault σ β} {s : σ} :
    DefinedFrom (MonadExcept.ofExcept x >>= f) s ↔
      Defined x ∧ ∀ a, x = .ok a → DefinedFrom (f a) s := by
  cases x with
  | ok a =>
      constructor
      · intro h
        refine ⟨defined_ok a, ?_⟩
        rintro _ ⟨⟩
        exact h
      · rintro ⟨_, h⟩
        exact h a rfl
  | error e =>
      constructor
      · intro h
        constructor
        · rintro op ⟨⟩
          exact h op s rfl
        · intro a ha
          cases ha
      · rintro ⟨h, _⟩ op t hop
        cases hop
        exact h op rfl

/-- A loop is defined if its body is wherever the loop gets to. -/
theorem definedFrom_forM_iff {f : α → EStateM Fault σ PUnit} {l : List α} {s : σ} :
    DefinedFrom (forM l f) s ↔
      ∀ before a after t, l = before ++ a :: after → (forM before f).run s = .ok () t →
        DefinedFrom (f a) t := by
  constructor
  · intro h before a after t hl hbefore op u hu
    exact h op u (forM_run_eq_error_iff.mpr ⟨before, a, after, t, hl, hbefore, hu⟩)
  · intro h op u hu
    obtain ⟨before, a, after, t, hl, hbefore, ha⟩ := forM_run_eq_error_iff.mp hu
    exact h before a after t hl hbefore op u ha

theorem definedFrom_forM_iff_whileTaken {f : α → EStateM Fault σ PUnit} {taken P : α → Prop}
    {l : List α} (htaken : ∀ a s, (∃ t, (f a).run s = .ok () t) ↔ taken a)
    (hP : ∀ a s, DefinedFrom (f a) s ↔ P a) {s : σ} :
    DefinedFrom (forM l f) s ↔ WhileTaken taken P l := by
  rw [definedFrom_forM_iff]
  constructor
  · intro h before a after hl hbefore
    obtain ⟨t, ht⟩ := (forM_returns_iff htaken (s := s)).mpr hbefore
    exact (hP a t).mp (h before a after t hl ht)
  · intro h before a after t hl ht
    exact (hP a t).mpr (h before a after hl ((forM_returns_iff htaken).mp ⟨t, ht⟩))

@[simp] theorem definedFrom_catching {m : EStateM Fault σ α} {s : σ} :
    DefinedFrom (catching m) s ↔ DefinedFrom m s := by
  constructor
  · intro h op t ht
    exact h op t (catching_run_undefined ht)
  · intro h op t ht
    rcases hm : m.run s with ⟨a, u⟩ | ⟨e | op', u⟩
    · rw [catching_run_ok hm] at ht
      cases ht
    · rw [catching_run_thrown hm] at ht
      cases ht
    · exact h op' u hm

/-- A function no exception leaves is defined where it returns, and only there. -/
theorem definedFrom_iff_returns {m : EStateM Fault σ α} (hm : NoExcept m) {s : σ} :
    DefinedFrom m s ↔ ∃ a t, m.run s = .ok a t := by
  constructor
  · intro h
    rcases hrun : m.run s with ⟨a, t⟩ | ⟨e | op, t⟩
    · exact ⟨a, t, rfl⟩
    · exact absurd hrun (hm s t e)
    · exact absurd hrun (h op t)
  · rintro ⟨a, t, hrun⟩
    exact DefinedFrom.of_ok hrun

theorem noExcept_ofExcept {x : Except Fault α} (h : ∀ e, x ≠ .error (.thrown e)) :
    NoExcept (MonadExcept.ofExcept x : EStateM Fault σ α) := by
  intro s t e hrun
  cases x with
  | ok a => cases hrun
  | error e' =>
      cases hrun
      exact h e rfl

/-- A function that is defined in every state. -/
def AlwaysDefined (m : EStateM Fault σ α) : Prop := ∀ s, DefinedFrom m s

theorem AlwaysDefined.bind {m : EStateM Fault σ α} {f : α → EStateM Fault σ β}
    (hm : AlwaysDefined m) (hf : ∀ a, AlwaysDefined (f a)) : AlwaysDefined (m >>= f) := by
  intro s
  exact definedFrom_bind_iff.mpr ⟨hm s, fun a t _ => hf a t⟩

theorem AlwaysDefined.forM {f : α → EStateM Fault σ PUnit} {l : List α}
    (h : ∀ a ∈ l, AlwaysDefined (f a)) : AlwaysDefined (forM l f) := by
  intro s
  rw [definedFrom_forM_iff]
  rintro before a after t rfl _
  exact h a (by simp) t

end Cpp
