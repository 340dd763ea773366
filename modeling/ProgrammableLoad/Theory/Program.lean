/-
# `Theory.Program` — stateful programs that may stop with a fault

A program is an `EStateM ε σ α`: from a state it either returns a value in a
new state or stops with a fault.  The state changes made before the fault
stay, which is what happens to the members of an object when one of its
member functions throws.

Two judgments are used.  When a program returns is the equation
`m.run s = .ok a t`, taken apart along binds by the lemmas of the first
section.  `Keeps I m` says that `m` keeps `I`, whichever way it ends.
-/
import Mathlib

namespace Program

variable {ε σ α β : Type}

/-! ## Running a program -/

@[simp] theorem run_throw' (e : ε) (s : σ) :
    EStateM.run (throw e : EStateM ε σ α) s = .error e s := rfl

@[simp] theorem run_ite (c : Prop) [Decidable c] (m m' : EStateM ε σ α) (s : σ) :
    EStateM.run (if c then m else m') s
      = if c then EStateM.run m s else EStateM.run m' s := by
  split <;> rfl

@[simp] theorem run_get_bind (f : σ → EStateM ε σ α) (s : σ) :
    EStateM.run (get >>= f) s = EStateM.run (f s) s := rfl

/-- A bind that returns is a return of its first part, then of its second. -/
theorem run_bind_eq_ok {m : EStateM ε σ α} {f : α → EStateM ε σ β} {s t : σ}
    {b : β} :
    (m >>= f).run s = .ok b t ↔
      ∃ a u, m.run s = .ok a u ∧ (f a).run u = .ok b t := by
  rw [EStateM.run_bind]
  cases h : m.run s with
  | ok a u =>
      constructor
      · intro hf
        exact ⟨a, u, rfl, hf⟩
      · rintro ⟨a', u', hau, hf⟩
        cases hau
        exact hf
  | error e u =>
      constructor
      · intro hf
        cases hf
      · rintro ⟨_, _, hau, _⟩
        cases hau

theorem run_bind_of_ok {m : EStateM ε σ α} {f : α → EStateM ε σ β} {s t : σ} {a : α}
    (h : m.run s = .ok a t) : (m >>= f).run s = (f a).run t := by
  rw [EStateM.run_bind, h]

theorem run_bind_of_error {m : EStateM ε σ α} {f : α → EStateM ε σ β} {s t : σ} {e : ε}
    (h : m.run s = .error e t) : (m >>= f).run s = .error e t := by
  rw [EStateM.run_bind, h]

/-- The same for a step that has no state. -/
theorem except_bind_eq_ok {x : Except ε α} {f : α → Except ε β} {b : β} :
    (x >>= f) = .ok b ↔ ∃ a, x = .ok a ∧ f a = .ok b := by
  cases x with
  | ok a => exact ⟨fun h => ⟨a, rfl, h⟩, fun ⟨_, ha, h⟩ => by cases ha; exact h⟩
  | error e => exact ⟨fun h => (nomatch h), fun ⟨_, ha, _⟩ => (nomatch ha)⟩

theorem except_bind_of_ok {x : Except ε α} {f : α → Except ε β} {a : α} (h : x = .ok a) :
    (x >>= f) = f a := by
  rw [h]
  rfl

theorem run_ofExcept_bind_eq_ok {x : Except ε α} {f : α → EStateM ε σ β} {s t : σ} {b : β} :
    EStateM.run (MonadExcept.ofExcept x >>= f) s = .ok b t ↔
      ∃ a, x = .ok a ∧ (f a).run s = .ok b t := by
  cases x with
  | ok a => exact ⟨fun h => ⟨a, rfl, h⟩, fun ⟨_, ha, h⟩ => by cases ha; exact h⟩
  | error e => exact ⟨fun h => (nomatch h), fun ⟨_, ha, _⟩ => (nomatch ha)⟩

/-- The state in which `m` ends from `s`, by a return or by a fault. -/
def stateAfter (m : EStateM ε σ α) (s : σ) : σ :=
  match m.run s with
  | .ok _ t => t
  | .error _ t => t

theorem stateAfter_of_ok {m : EStateM ε σ α} {s t : σ} {a : α} (h : m.run s = .ok a t) :
    stateAfter m s = t := by
  rw [stateAfter, h]

theorem stateAfter_of_error {m : EStateM ε σ α} {s t : σ} {e : ε}
    (h : m.run s = .error e t) : stateAfter m s = t := by
  rw [stateAfter, h]

/-- A bind whose first part returns ends where the second does. -/
theorem stateAfter_bind_of_ok {m : EStateM ε σ α} {f : α → EStateM ε σ β} {s t : σ} {a : α}
    (h : m.run s = .ok a t) : stateAfter (m >>= f) s = stateAfter (f a) t := by
  simp only [stateAfter, EStateM.run_bind, h]

/-- A bind whose first part faults ends there. -/
theorem stateAfter_bind_of_error {m : EStateM ε σ α} {f : α → EStateM ε σ β} {s t : σ} {e : ε}
    (h : m.run s = .error e t) : stateAfter (m >>= f) s = t := by
  simp only [stateAfter, EStateM.run_bind, h]

/-! ## Keeping an invariant -/

/-- From a state in `I`, `m` ends in one, be it by a return or by a fault. -/
def Keeps (I : σ → Prop) (m : EStateM ε σ α) : Prop :=
  ∀ s, I s → match m.run s with
    | .ok _ t => I t
    | .error _ t => I t

theorem Keeps.ret {I : σ → Prop} (a : α) : Keeps I (pure a : EStateM ε σ α) :=
  fun _ hs => hs

theorem Keeps.raise {I : σ → Prop} (e : ε) : Keeps I (throw e : EStateM ε σ α) :=
  fun _ hs => hs

theorem Keeps.read {I : σ → Prop} : Keeps I (get : EStateM ε σ σ) :=
  fun _ hs => hs

theorem Keeps.modify {I : σ → Prop} {f : σ → σ} (h : ∀ s, I s → I (f s)) :
    Keeps I (modify f : EStateM ε σ PUnit) :=
  fun s hs => h s hs

theorem Keeps.ofExcept {I : σ → Prop} (x : Except ε α) :
    Keeps I (MonadExcept.ofExcept x : EStateM ε σ α) := by
  cases x with
  | ok a => exact Keeps.ret a
  | error e => exact Keeps.raise e

theorem Keeps.bind {I : σ → Prop} {m : EStateM ε σ α} {f : α → EStateM ε σ β}
    (hm : Keeps I m) (hf : ∀ a, Keeps I (f a)) : Keeps I (m >>= f) := by
  intro s hs
  have h := hm s hs
  rw [EStateM.run_bind]
  cases hr : m.run s with
  | ok a t =>
      rw [hr] at h
      exact hf a t h
  | error e t =>
      rw [hr] at h
      exact h

theorem Keeps.stateAfter {I : σ → Prop} {m : EStateM ε σ α} (hm : Keeps I m) {s : σ}
    (hs : I s) : I (Program.stateAfter m s) := by
  have hk := hm s hs
  cases hr : m.run s with
  | ok a t =>
      rw [hr] at hk
      rw [stateAfter_of_ok hr]
      exact hk
  | error e t =>
      rw [hr] at hk
      rw [stateAfter_of_error hr]
      exact hk

theorem Keeps.of_ok {I : σ → Prop} {m : EStateM ε σ α} {s t : σ} {a : α} (hm : Keeps I m)
    (hs : I s) (h : m.run s = .ok a t) : I t := by
  have hk := hm s hs
  rw [h] at hk
  exact hk

end Program
