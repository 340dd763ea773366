/-
# `Theory.Runs` — a program fed a list of inputs

`step x` is what a machine does on the input `x`.  `Steps step s xs ws t` is a
run over the whole list `xs`: the machine starts in `s`, answers `ws`, ends in
`t` and never faults.  `Along step R s xs` says of such a run that every step
of it satisfies `R`, which sees the state before the step, the input, the
answer and the state after.

A fault ends a run, so `Along` is false of a list on which the machine faults,
and `Throughout` asks nothing of the steps from the fault on.  Where a fault is
caught and the run goes on, feed the list to a step that answers with its
fault instead; `Wherever` is for machines that go on after a fault by
themselves.
-/
import ProgrammableLoad.Theory.Program

namespace Program

variable {ε σ ι ω : Type} {step : ι → EStateM ε σ ω}

/-- The run of `step` over a list of inputs, with its answers and last state. -/
inductive Steps (step : ι → EStateM ε σ ω) : σ → List ι → List ω → σ → Prop
  | nil (s : σ) : Steps step s [] [] s
  | cons {s u t : σ} {x : ι} {w : ω} {xs : List ι} {ws : List ω} :
      (step x).run s = .ok w u → Steps step u xs ws t →
      Steps step s (x :: xs) (w :: ws) t

/-- Every step of the run over `xs` satisfies `R`. -/
def Along (step : ι → EStateM ε σ ω) (R : σ → ι → ω → σ → Prop) :
    σ → List ι → Prop
  | _, [] => True
  | s, x :: xs => ∃ w u, (step x).run s = .ok w u ∧ R s x w u ∧ Along step R u xs

/-! ## Runs -/

/-- A machine has one run over a list. -/
theorem Steps.det {s t t' : σ} {xs : List ι} {ws ws' : List ω}
    (h : Steps step s xs ws t) (h' : Steps step s xs ws' t') :
    ws = ws' ∧ t = t' := by
  induction h generalizing ws' t' with
  | nil s =>
      cases h'
      exact ⟨rfl, rfl⟩
  | cons hx _ ih =>
      cases h' with
      | cons hx' hxs' =>
          rw [hx] at hx'
          cases hx'
          obtain ⟨rfl, rfl⟩ := ih hxs'
          exact ⟨rfl, rfl⟩

theorem steps_cons_iff {s t : σ} {x : ι} {xs : List ι} {ws : List ω} :
    Steps step s (x :: xs) ws t ↔
      ∃ w u ws', ws = w :: ws' ∧ (step x).run s = .ok w u ∧ Steps step u xs ws' t := by
  constructor
  · intro h
    cases h with
    | cons hx hxs => exact ⟨_, _, _, rfl, hx, hxs⟩
  · rintro ⟨w, u, ws', rfl, hx, hxs⟩
    exact .cons hx hxs

/-! ## Facts about every step of a run -/

theorem along_cons_of_run {R : σ → ι → ω → σ → Prop} {s u : σ} {x : ι} {w : ω}
    {xs : List ι} (hx : (step x).run s = .ok w u) :
    Along step R s (x :: xs) ↔ R s x w u ∧ Along step R u xs := by
  constructor
  · rintro ⟨w', u', hx', hR, hxs⟩
    rw [hx] at hx'
    cases hx'
    exact ⟨hR, hxs⟩
  · rintro ⟨hR, hxs⟩
    exact ⟨w, u, hx, hR, hxs⟩

/-- Two step properties that agree wherever the invariant holds agree along
every run that starts in it.  The invariant has to be kept by the steps with
the properties only. -/
theorem along_iff {I : σ → Prop} {R C : σ → ι → ω → σ → Prop}
    (hI : ∀ s x w u, I s → (step x).run s = .ok w u → C s x w u → I u)
    (h : ∀ s x w u, I s → (step x).run s = .ok w u → (R s x w u ↔ C s x w u)) :
    ∀ {s : σ} {xs : List ι}, I s → (Along step R s xs ↔ Along step C s xs)
  | _, [], _ => Iff.rfl
  | s, x :: xs, hs => by
      constructor
      · rintro ⟨w, u, hx, hR, hxs⟩
        have hC := (h s x w u hs hx).mp hR
        exact ⟨w, u, hx, hC, (along_iff hI h (hI s x w u hs hx hC)).mp hxs⟩
      · rintro ⟨w, u, hx, hC, hxs⟩
        exact ⟨w, u, hx, (h s x w u hs hx).mpr hC,
          (along_iff hI h (hI s x w u hs hx hC)).mpr hxs⟩

/-- The same for an invariant of every step. -/
theorem along_congr {I : σ → Prop} {R C : σ → ι → ω → σ → Prop}
    (hI : ∀ s x w u, I s → (step x).run s = .ok w u → I u)
    (h : ∀ s x w u, I s → (step x).run s = .ok w u → (R s x w u ↔ C s x w u))
    {s : σ} {xs : List ι} (hs : I s) : Along step R s xs ↔ Along step C s xs :=
  along_iff (fun s x w u hs hx _ => hI s x w u hs hx) h hs

/-! ## Runs that a fault may end -/

/-- Every step of the run over `xs` satisfies `R`, up to the first one that
faults. -/
def Throughout (step : ι → EStateM ε σ ω) (R : σ → ι → ω → σ → Prop) :
    σ → List ι → Prop
  | _, [] => True
  | s, x :: xs => ∀ w u, (step x).run s = .ok w u → R s x w u ∧ Throughout step R u xs

theorem throughout_cons_of_run {R : σ → ι → ω → σ → Prop} {s u : σ} {x : ι} {w : ω}
    {xs : List ι} (hx : (step x).run s = .ok w u) :
    Throughout step R s (x :: xs) ↔ R s x w u ∧ Throughout step R u xs := by
  constructor
  · intro h
    exact h w u hx
  · intro h w' u' hx'
    rw [hx] at hx'
    cases hx'
    exact h

theorem throughout_iff {I : σ → Prop} {R C : σ → ι → ω → σ → Prop}
    (hI : ∀ s x w u, I s → (step x).run s = .ok w u → C s x w u → I u)
    (h : ∀ s x w u, I s → (step x).run s = .ok w u → (R s x w u ↔ C s x w u)) :
    ∀ {s : σ} {xs : List ι}, I s → (Throughout step R s xs ↔ Throughout step C s xs)
  | _, [], _ => Iff.rfl
  | s, x :: xs, hs => by
      constructor
      · intro hrun w u hx
        obtain ⟨hR, hxs⟩ := hrun w u hx
        have hC := (h s x w u hs hx).mp hR
        exact ⟨hC, (throughout_iff hI h (hI s x w u hs hx hC)).mp hxs⟩
      · intro hrun w u hx
        obtain ⟨hC, hxs⟩ := hrun w u hx
        exact ⟨(h s x w u hs hx).mpr hC,
          (throughout_iff hI h (hI s x w u hs hx hC)).mpr hxs⟩

/-! ## Machines that go on after a fault -/

/-- The state after a list of inputs, where a fault ends a step and not the
run. -/
def final (step : ι → EStateM ε σ ω) : σ → List ι → σ
  | s, [] => s
  | s, x :: xs => final step (stateAfter (step x) s) xs

theorem final_keeps {I : σ → Prop} {xs : List ι}
    (h : ∀ x ∈ xs, ∀ s, I s → I (stateAfter (step x) s)) {s : σ} (hs : I s) :
    I (final step s xs) := by
  induction xs generalizing s with
  | nil => exact hs
  | cons x xs ih =>
      exact ih (fun y hy => h y (List.mem_cons_of_mem x hy)) (h x List.mem_cons_self s hs)

theorem final_append (s : σ) (xs ys : List ι) :
    final step s (xs ++ ys) = final step (final step s xs) ys := by
  induction xs generalizing s with
  | nil => rfl
  | cons x xs ih => exact ih _

/-- `P` holds of every state the machine gets to and the input it meets there. -/
def Wherever (step : ι → EStateM ε σ ω) (P : σ → ι → Prop) : σ → List ι → Prop
  | _, [] => True
  | s, x :: xs => P s x ∧ Wherever step P (stateAfter (step x) s) xs

/-- Two properties of a step that agree wherever the invariant holds agree on
every run that starts in it.  The invariant has to be kept by the steps with
the properties only. -/
theorem wherever_iff {I : σ → Prop} {P Q : σ → ι → Prop}
    (hI : ∀ s x, I s → Q s x → I (stateAfter (step x) s))
    (h : ∀ s x, I s → (P s x ↔ Q s x)) {s : σ} {xs : List ι} (hs : I s) :
    Wherever step P s xs ↔ Wherever step Q s xs := by
  induction xs generalizing s with
  | nil => exact Iff.rfl
  | cons x xs ih =>
      constructor
      · rintro ⟨hP, hxs⟩
        have hQ := (h s x hs).mp hP
        exact ⟨hQ, (ih (hI s x hs hQ)).mp hxs⟩
      · rintro ⟨hQ, hxs⟩
        exact ⟨(h s x hs).mpr hQ, (ih (hI s x hs hQ)).mpr hxs⟩

/-- A machine that takes the steps with `P`, and with the property `R`. -/
theorem along_of_wherever {I : σ → Prop} {R : σ → ι → ω → σ → Prop} {P : σ → ι → Prop}
    (htakes : ∀ s x, I s → P s x → ∃ w t, (step x).run s = .ok w t ∧ R s x w t ∧ I t)
    {s : σ} {xs : List ι} (hs : I s) (h : Wherever step P s xs) : Along step R s xs := by
  induction xs generalizing s with
  | nil => trivial
  | cons x xs ih =>
      obtain ⟨hP, hxs⟩ := h
      obtain ⟨w, t, hx, hR, ht⟩ := htakes s x hs hP
      rw [stateAfter_of_ok hx] at hxs
      exact ⟨w, t, hx, hR, ih ht hxs⟩

theorem wherever_append {P : σ → ι → Prop} {s : σ} {xs ys : List ι}
    (h : Wherever step P s (xs ++ ys)) : Wherever step P s xs ∧
      Wherever step P (final step s xs) ys := by
  induction xs generalizing s with
  | nil => exact ⟨trivial, h⟩
  | cons x xs ih =>
      obtain ⟨hP, hxs⟩ := h
      obtain ⟨hfront, hback⟩ := ih hxs
      exact ⟨⟨hP, hfront⟩, hback⟩

theorem wherever_and {P Q : σ → ι → Prop} {s : σ} {xs : List ι} (hP : Wherever step P s xs)
    (hQ : Wherever step Q s xs) : Wherever step (fun s x => P s x ∧ Q s x) s xs := by
  induction xs generalizing s with
  | nil => trivial
  | cons x xs ih => exact ⟨⟨hP.1, hQ.1⟩, ih hP.2 hQ.2⟩

theorem wherever_of_forall {P : σ → ι → Prop} {xs : List ι} (h : ∀ x ∈ xs, ∀ s, P s x) (s : σ) :
    Wherever step P s xs := by
  induction xs generalizing s with
  | nil => trivial
  | cons x xs ih =>
      exact ⟨h x List.mem_cons_self s, ih (fun y hy => h y (List.mem_cons_of_mem x hy)) _⟩

/-- A machine whose steps with `P` are those of another one, which `next` never
leaves without a state, has a run through such steps, and ends it where the
other one does. -/
theorem steps_of_simulation {τ : Type} {R : σ → τ → Prop} {P : σ → ι → Prop} {next : τ → ι → τ}
    (htakes : ∀ s a x, R s a → P s x → ∃ w t, (step x).run s = .ok w t ∧ R t (next a x))
    {s : σ} {a : τ} {xs : List ι} (hs : R s a) (h : Wherever step P s xs) :
    (∃ ws, Steps step s xs ws (final step s xs)) ∧ R (final step s xs) (xs.foldl next a) := by
  induction xs generalizing s a with
  | nil => exact ⟨⟨[], .nil s⟩, hs⟩
  | cons x xs ih =>
      obtain ⟨hP, hxs⟩ := h
      obtain ⟨w, t, hx, ht⟩ := htakes s a x hs hP
      rw [stateAfter_of_ok hx] at hxs
      obtain ⟨⟨ws, hsteps⟩, hend⟩ := ih ht hxs
      rw [final, stateAfter_of_ok hx]
      exact ⟨⟨w :: ws, .cons hx hsteps⟩, hend⟩

/-- If it takes no other step so, it has `R` along the runs with `P` only. -/
theorem along_iff_wherever {I : σ → Prop} {R : σ → ι → ω → σ → Prop} {P : σ → ι → Prop}
    (htakes : ∀ s x, I s → P s x → ∃ w t, (step x).run s = .ok w t ∧ R s x w t ∧ I t)
    (honly : ∀ s x w t, I s → (step x).run s = .ok w t → R s x w t → P s x)
    {s : σ} {xs : List ι} (hs : I s) : Along step R s xs ↔ Wherever step P s xs := by
  refine ⟨fun h => ?_, along_of_wherever htakes hs⟩
  induction xs generalizing s with
  | nil => trivial
  | cons x xs ih =>
      obtain ⟨w, t, hx, hR, hxs⟩ := h
      have hP := honly s x w t hs hx hR
      obtain ⟨w', t', hx', _, ht⟩ := htakes s x hs hP
      rw [hx] at hx'
      cases hx'
      exact ⟨hP, (stateAfter_of_ok hx).symm ▸ ih ht hxs⟩

/-! ## Machines with a record -/

/-- The machine with a list of its inputs and answers. -/
def recorded (step : ι → EStateM ε σ ω) (x : ι) : EStateM ε (σ × List (ι × ω)) ω := fun s =>
  match (step x).run s.1 with
  | .ok w t => .ok w (t, s.2 ++ [(x, w)])
  | .error e t => .error e (t, s.2)

theorem recorded_run_of_ok {s t : σ} {x : ι} {w : ω} (h : (step x).run s = .ok w t)
    (log : List (ι × ω)) : (recorded step x).run (s, log) = .ok w (t, log ++ [(x, w)]) := by
  show recorded step x (s, log) = _
  simp only [recorded, h]

theorem recorded_run_eq_ok {s t : σ × List (ι × ω)} {x : ι} {w : ω}
    (h : (recorded step x).run s = .ok w t) :
    (step x).run s.1 = .ok w t.1 ∧ t.2 = s.2 ++ [(x, w)] := by
  simp only [recorded, EStateM.run] at h ⊢
  split at h
  · rename_i hx
    cases h
    exact ⟨hx, rfl⟩
  · cases h

end Program
