/-
# `Gui.DoubleBuffer` — which buffer is drawn into

Double buffering asks two things of the record of accesses: no callback draws
into the buffer on screen, and the next flip after a callback's drawing is to
the buffer it drew.  The second always holds.  The first never does: a flip
that waits is always the one to `currentFb`, so when its event arrives
`currentFb` is on screen, and that is the index `PageFlipHandler` picks.
-/
import ProgrammableLoad.Theory.Runs
import ProgrammableLoad.Gui.Framebuffer

namespace Gui

open Cpp Program

variable {Cb : Type}

/-! ## The property -/

/-- No callback drew into the buffer on screen. -/
def OffScreen (accesses : List Access) : Prop :=
  ∀ index onScreen, .draw index onScreen ∈ accesses → index ≠ onScreen

def flipOf : Access → Option (Fin 2)
  | .flip index => some index
  | .draw _ _ => none

/-- After each drawing, the next flip is to the buffer drawn. -/
def FlippedNext : List Access → Prop
  | [] => True
  | .draw index _ :: rest => rest.findSome? flipOf = some index ∧ FlippedNext rest
  | .flip _ :: rest => FlippedNext rest

structure DoubleBuffered (accesses : List Access) : Prop where
  offScreen : OffScreen accesses
  flippedNext : FlippedNext accesses

/-- The event does not make a callback draw: it is no page flip, or no swap
callback is installed. -/
def Undrawn (s : System Cb) (e : Event Cb) : Prop :=
  ∀ flipOk, e = .verticalBlank flipOk → s.display.pending ≠ none →
    s.fb.swapCallbacks.entries = []

/-! ## Records -/

theorem offScreen_append {l l' : List Access} :
    OffScreen (l ++ l') ↔ OffScreen l ∧ OffScreen l' := by
  simp only [OffScreen, List.mem_append, or_imp, forall_and]

theorem FlippedNext.append {l l' : List Access} (h : FlippedNext l)
    (h' : FlippedNext l') : FlippedNext (l ++ l') := by
  induction l with
  | nil => exact h'
  | cons a rest ih =>
      cases a with
      | draw index onScreen =>
          refine ⟨?_, ih h.2⟩
          show (rest ++ l').findSome? flipOf = some index
          rw [List.findSome?_append, h.1]
          rfl
      | flip index => exact ih h

/-- What one page flip adds to the record: the drawings, then the next flip. -/
def frame (index onScreen : Fin 2) (n : Nat) : List Access :=
  List.replicate n (.draw index onScreen) ++ [.flip index]

theorem frame_succ (index onScreen : Fin 2) (n : Nat) :
    frame index onScreen (n + 1) = .draw index onScreen :: frame index onScreen n := rfl

theorem flippedNext_frame (index onScreen : Fin 2) : ∀ n : Nat,
    FlippedNext (frame index onScreen n) ∧
      (frame index onScreen n).findSome? flipOf = some index
  | 0 => ⟨trivial, rfl⟩
  | n + 1 => by
      obtain ⟨hflipped, hfirst⟩ := flippedNext_frame index onScreen n
      rw [frame_succ]
      exact ⟨⟨hfirst, hflipped⟩, hfirst⟩

theorem offScreen_frame_iff {index : Fin 2} {n : Nat} :
    OffScreen (frame index index n) ↔ n = 0 := by
  constructor
  · intro h
    by_contra hn
    obtain ⟨m, rfl⟩ := Nat.exists_eq_succ_of_ne_zero hn
    exact h index index (by simp [frame]) rfl
  · rintro rfl index' onScreen hmem
    simp [frame] at hmem

/-! ## One event -/

/-- Between two events: a waiting flip is the one to `currentFb`, and every
drawing has been followed by its flip. -/
structure Inv (s : System Cb) : Prop where
  waiting : ∀ index, s.display.pending = some index → index = s.fb.currentFb
  flippedNext : FlippedNext s.display.accesses

theorem inv_initial : Inv (initial : System Cb) where
  waiting := by
    intro index h
    cases h
    rfl
  flippedNext := trivial

theorem forM_swapCallback_run {ι : Type} (index : Fin 2) :
    ∀ (callbacks : List ι) (s : System Cb),
      (forM callbacks fun _ => swapCallback index).run s
        = .ok () { s with display.accesses := s.display.accesses ++
            List.replicate callbacks.length (.draw index s.display.scanout) }
  | [], s => by simp
  | cb :: callbacks, s => by
      rw [List.forM_cons, EStateM.run_bind]
      simp only [swapCallback, EStateM.run_modify]
      rw [← swapCallback, forM_swapCallback_run index callbacks]
      simp [List.replicate_succ]

/-- The buffer picked is the one named by `currentFb`. -/
theorem nextFb_eq (currentFb : Fin 2) :
    (if currentFb = 0 then (0 : Fin 2) else 1) = currentFb := by
  revert currentFb
  decide

theorem verticalBlank_run {s : System Cb} (hs : Inv s) {index : Fin 2}
    (hp : s.display.pending = some index) (flipOk : Bool) :
    ∃ t, (verticalBlank flipOk).run s = .ok () t ∧ Inv t ∧
      t.display.accesses = s.display.accesses ++
        frame index index s.fb.swapCallbacks.entries.length := by
  obtain rfl := hs.waiting index hp
  have hflipped := hs.flippedNext.append
    (flippedNext_frame s.fb.currentFb s.fb.currentFb s.fb.swapCallbacks.entries.length).1
  cases flipOk with
  | true =>
      have hrun : ∃ t, (pageFlipHandler true).run { s with
            display.scanout := s.fb.currentFb
            display.pending := none } = .ok () t ∧
          t.display.pending = some s.fb.currentFb ∧ t.fb.currentFb = s.fb.currentFb ∧
          t.display.accesses = s.display.accesses ++
            frame s.fb.currentFb s.fb.currentFb s.fb.swapCallbacks.entries.length := by
        simp [pageFlipHandler, requestFbFlip, forM_calls_swap, forM_swapCallback_run,
          Framebuffer.index, nextFb_eq, frame]
      obtain ⟨t, hrun, hpending, hcurrent, hacc⟩ := hrun
      refine ⟨t, ?_, ⟨?_, hacc ▸ hflipped⟩, hacc⟩
      · simp [verticalBlank, hp, catching_run_ok hrun]
      · intro index hindex
        rw [hpending] at hindex
        cases hindex
        exact hcurrent.symm
  | false =>
      -- a refused flip leaves none waiting
      have hrun : ∃ e t, (pageFlipHandler false).run { s with
            display.scanout := s.fb.currentFb
            display.pending := none } = .error (.thrown e) t ∧
          t.display.pending = none ∧
          t.display.accesses = s.display.accesses ++
            frame s.fb.currentFb s.fb.currentFb s.fb.swapCallbacks.entries.length := by
        simp [pageFlipHandler, requestFbFlip, forM_calls_swap, forM_swapCallback_run,
          Framebuffer.index, nextFb_eq, frame]
      obtain ⟨e, t, hrun, hpending, hacc⟩ := hrun
      refine ⟨t, ?_, ⟨?_, hacc ▸ hflipped⟩, hacc⟩
      · simp [verticalBlank, hp, catching_run_thrown hrun]
      · intro index hindex
        rw [hpending] at hindex
        cases hindex

/-- An event never faults, keeps the invariant, and draws off screen only if it
draws nothing. -/
theorem step_run {s : System Cb} (hs : Inv s) (e : Event Cb) :
    ∃ out t, (step e).run s = .ok out t ∧ Inv t ∧
      (OffScreen t.display.accesses ↔ OffScreen s.display.accesses ∧ Undrawn s e) := by
  have hsame : ∀ {t : System Cb}, t.display = s.display → t.fb.currentFb = s.fb.currentFb →
      Inv t := by
    intro t hd hc
    exact ⟨by rw [hd, hc]; exact hs.waiting, by rw [hd]; exact hs.flippedNext⟩
  cases e with
  | verticalBlank flipOk =>
      cases hp : s.display.pending with
      | none =>
          exact ⟨none, s, by simp [step, verticalBlank, hp], hs, by simp [Undrawn, hp]⟩
      | some index =>
          obtain ⟨t, hrun, ht, hacc⟩ := verticalBlank_run hs hp flipOk
          refine ⟨none, t, by simp [step, hrun], ht, ?_⟩
          rw [hacc, offScreen_append, offScreen_frame_iff, List.length_eq_zero_iff]
          simp [Undrawn, hp]
  | addSwapCallback cb =>
      exact ⟨_, _, rfl, hsame rfl rfl, by simp [Undrawn]⟩
  | addVBlankCallback cb =>
      exact ⟨_, _, rfl, hsame rfl rfl, by simp [Undrawn]⟩
  | removeSwapCallback token =>
      exact ⟨_, _, rfl, hsame rfl rfl, by simp [Undrawn]⟩
  | removeVBlankCallback token =>
      exact ⟨_, _, rfl, hsame rfl rfl, by simp [Undrawn]⟩

/-! ## Runs -/

theorem doubleBuffered_from_iff : ∀ (events : List (Event Cb)) {s : System Cb}, Inv s →
    ((∃ outs t, Steps step s events outs t ∧ DoubleBuffered t.display.accesses) ↔
      OffScreen s.display.accesses ∧ Along step (fun s e _ _ => Undrawn s e) s events)
  | [], s, hs => by
      constructor
      · rintro ⟨outs, t, hsteps, hdb⟩
        cases hsteps
        exact ⟨hdb.offScreen, trivial⟩
      · rintro ⟨hoff, _⟩
        exact ⟨[], s, .nil s, hoff, hs.flippedNext⟩
  | e :: events, s, hs => by
      obtain ⟨out, u, hrun, hu, hoff⟩ := step_run hs e
      rw [along_cons_of_run hrun, ← and_assoc, ← hoff, ← doubleBuffered_from_iff events hu]
      constructor
      · rintro ⟨outs, t, hsteps, hdb⟩
        obtain ⟨out', u', outs', _, hrun', hsteps'⟩ := steps_cons_iff.mp hsteps
        rw [hrun] at hrun'
        cases hrun'
        exact ⟨outs', t, hsteps', hdb⟩
      · rintro ⟨outs, t, hsteps, hdb⟩
        exact ⟨out :: outs, t, .cons hrun hsteps, hdb⟩

/-- A run is double buffered if and only if no page flip finds a swap callback
installed. -/
theorem doubleBuffered_iff_undrawn (events : List (Event Cb)) :
    (∃ outs t, Steps step initial events outs t ∧ DoubleBuffered t.display.accesses) ↔
      Along step (fun s e _ _ => Undrawn s e) initial events := by
  rw [doubleBuffered_from_iff events inv_initial]
  have hoff : OffScreen (initial : System Cb).display.accesses := by
    intro index onScreen hmem
    simp [initial] at hmem
  exact and_iff_right hoff

/-- With one callback, the first page flip already draws on screen. -/
theorem not_doubleBuffered_first_flip :
    ∃ outs t, Steps step (initial : System Unit) [.addSwapCallback (), .verticalBlank true]
        outs t ∧ ¬ DoubleBuffered t.display.accesses := by
  refine ⟨_, _, .cons rfl (.cons rfl (.nil _)), ?_⟩
  intro h
  exact h.offScreen 1 1 (by decide) rfl

end Gui
