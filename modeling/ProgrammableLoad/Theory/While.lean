/-
# `Theory.While` — loops that run until a test fails

`whileLoop` runs a loop for a number of turns at most, which makes it a total
function of the number.  A loop comes to something if the number does not matter
once it is large enough, `Settles`.

The rule for total correctness is `settles_while`: the invariant holds before
each turn, and a turn makes the variant smaller.
-/
import ProgrammableLoad.Theory.Program

namespace Program

variable {ε σ α β : Type}

/-- `while(test) body`, nothing if it would take more turns than these. -/
def whileLoop (test : σ → Except ε Bool) (body : σ → Except ε σ) :
    (turns : Nat) → σ → Except ε (Option σ)
  | 0, _ => .ok none
  | turns + 1, s =>
      match test s with
      | .error e => .error e
      | .ok false => .ok (some s)
      | .ok true =>
          match body s with
          | .error e => .error e
          | .ok t => whileLoop test body turns t

/-- With enough turns the result is `r`. -/
def Settles (f : (turns : Nat) → α) (r : α) : Prop := ∃ n, ∀ turns, n ≤ turns → f turns = r

theorem settles_const (r : α) : Settles (fun _ => r) r := ⟨0, fun _ _ => rfl⟩

/-- What is done with the result of a loop. -/
theorem Settles.map {f : Nat → α} {r : α} (h : Settles f r) (g : α → β) :
    Settles (fun turns => g (f turns)) (g r) := by
  obtain ⟨n, hn⟩ := h
  exact ⟨n, fun turns hturns => congrArg g (hn turns hturns)⟩

theorem Settles.congr {f g : Nat → α} {r : α} (h : Settles f r) (hfg : ∀ turns, g turns = f turns) :
    Settles g r := by
  obtain ⟨n, hn⟩ := h
  exact ⟨n, fun turns hturns => (hfg turns).trans (hn turns hturns)⟩

/-- What is done with the result of a loop may be a loop again. -/
theorem Settles.bind {f : Nat → Except ε α} {g : Nat → α → Except ε β} {a : α} {r : Except ε β}
    (hf : Settles f (.ok a)) (hg : Settles (fun turns => g turns a) r) :
    Settles (fun turns => f turns >>= g turns) r := by
  obtain ⟨n, hn⟩ := hf
  obtain ⟨k, hk⟩ := hg
  refine ⟨max n k, fun turns hturns => ?_⟩
  exact (except_bind_of_ok (hn turns (by omega))).trans (hk turns (by omega))

section While

variable {test : σ → Except ε Bool} {body : σ → Except ε σ} {s t : σ} {r : Except ε (Option σ)}

theorem settles_stop (h : test s = .ok false) :
    Settles (fun turns => whileLoop test body turns s) (.ok (some s)) := by
  refine ⟨1, fun turns hturns => ?_⟩
  obtain ⟨turns, rfl⟩ := Nat.exists_eq_add_of_le' hturns
  simp only [whileLoop, h]

theorem settles_turn (htest : test s = .ok true) (hbody : body s = .ok t)
    (h : Settles (fun turns => whileLoop test body turns t) r) :
    Settles (fun turns => whileLoop test body turns s) r := by
  obtain ⟨n, hn⟩ := h
  refine ⟨n + 1, fun turns hturns => ?_⟩
  obtain ⟨turns, rfl⟩ := Nat.exists_eq_add_of_le' (Nat.le_of_add_left_le hturns)
  simp only [whileLoop, htest, hbody]
  exact hn turns (by omega)

theorem settles_raise {e : ε} (htest : test s = .ok true) (hbody : body s = .error e) :
    Settles (fun turns => whileLoop test body turns s) (.error e) := by
  refine ⟨1, fun turns hturns => ?_⟩
  obtain ⟨turns, rfl⟩ := Nat.exists_eq_add_of_le' hturns
  simp only [whileLoop, htest, hbody]

/-- How a loop in a state with the invariant goes on: it stops, it is left by an
exception, or it takes a turn that keeps the invariant. -/
inductive Turns (test : σ → Except ε Bool) (body : σ → Except ε σ) (I : σ → Prop)
    (variant : σ → Nat) (P : Except ε (Option σ) → Prop) (s : σ) : Prop
  | stop (test_eq : test s = .ok false) (post : P (.ok (some s)))
  | raise (e : ε) (test_eq : test s = .ok true) (body_eq : body s = .error e) (post : P (.error e))
  | turn (t : σ) (test_eq : test s = .ok true) (body_eq : body s = .ok t) (inv : I t)
      (lt : variant t < variant s)

/-- The rule for total correctness. -/
theorem settles_while {I : σ → Prop} {variant : σ → Nat} {P : Except ε (Option σ) → Prop}
    (h : ∀ s, I s → Turns test body I variant P s) (hs : I s) :
    ∃ r, Settles (fun turns => whileLoop test body turns s) r ∧ P r := by
  induction hn : variant s using Nat.strong_induction_on generalizing s with
  | _ n ih =>
      cases h s hs with
      | stop htest hpost => exact ⟨_, settles_stop htest, hpost⟩
      | raise e htest hbody hpost => exact ⟨_, settles_raise htest hbody, hpost⟩
      | turn t htest hbody ht hlt =>
          obtain ⟨r, hr, hpost⟩ := ih (variant t) (hn ▸ hlt) ht rfl
          exact ⟨r, settles_turn htest hbody hr, hpost⟩

end While

end Program
