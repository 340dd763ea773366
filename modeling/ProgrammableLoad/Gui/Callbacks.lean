/-
# `Gui.Callbacks` — the callbacks of the framebuffer

There are two tables of callbacks, one for page flips and one for vertical
blanks, and one counter for the tokens of both.  An add takes the next value of
the counter that is not zero; that it may still be in use is not looked at, and
a callback under such a token is not put into the table.

So the loops of the handlers call exactly the callbacks that were added and not
removed, as long as no add meets a token of its own table, `along_registers_iff`.
Once the counter has wrapped around it may.
-/
import ProgrammableLoad.Theory.Runs
import ProgrammableLoad.Theory.Tokens
import ProgrammableLoad.Gui.DoubleBuffer

namespace Gui

open Cpp Program Tokens

variable {Cb : Type}

/-! ## The two tables -/

namespace Framebuffer

/-- The value at which `takeToken` stops. -/
def nextToken (fb : Framebuffer Cb) : BitVec 32 :=
  if fb.nextCallbackToken + 1 = 0 then fb.nextCallbackToken + 1 + 1 else fb.nextCallbackToken + 1

/-- The members after a call that changed one of the tables. -/
def put (fb : Framebuffer Cb) (m : Callbacks 32 Cb) (next : BitVec 32) : Kind → Framebuffer Cb
  | .swap => { fb with swapCallbacks := m, nextCallbackToken := next }
  | .vblank => { fb with vblankCallbacks := m, nextCallbackToken := next }

end Framebuffer

def Event.add : Kind → Cb → Event Cb
  | .swap => .addSwapCallback
  | .vblank => .addVBlankCallback

def Event.remove : Kind → BitVec 32 → Event Cb
  | .swap => .removeSwapCallback
  | .vblank => .removeVBlankCallback

/-! ## Runs -/

/-- The framebuffer with its events and the tokens it gave out. -/
abbrev Recorded (Cb : Type) := System Cb × List (Event Cb × Option (BitVec 32))

/-- What an event did to a table. -/
def entry (kind : Kind) : Event Cb × Option (BitVec 32) → List (Entry (BitVec 32) Cb)
  | (.addSwapCallback cb, some token) => if kind = .swap then [.added token cb] else []
  | (.addVBlankCallback cb, some token) => if kind = .vblank then [.added token cb] else []
  | (.removeSwapCallback token, _) => if kind = .swap then [.removed token] else []
  | (.removeVBlankCallback token, _) => if kind = .vblank then [.removed token] else []
  | _ => []

def history (kind : Kind) (log : List (Event Cb × Option (BitVec 32))) :
    List (Entry (BitVec 32) Cb) := log.flatMap (entry kind)

/-- A callback that is added gets a token that is not zero and not in use in its
table.  After the event the handlers call the callbacks that were added and not
removed since, each under its token, and no others. -/
structure Registers (s : Recorded Cb) (x : Event Cb) (w : Option (BitVec 32)) (t : Recorded Cb) :
    Prop where
  added : ∀ kind cb, x = .add kind cb → ∃ token, w = some token ∧ token ≠ 0 ∧
    ∀ cb', ¬ Installed (history kind s.2) token cb'
  called : ∀ kind token cb, (∃ index, (token, cb, index) ∈ t.1.fb.calls kind) ↔
    Installed (history kind t.2) token cb

/-- The token that an add will take is not in its table. -/
def Unused (s : Recorded Cb) (x : Event Cb) : Prop :=
  ∀ kind cb, x = .add kind cb → s.1.fb.nextToken ∉ s.1.fb.callbacks kind

/-! ## One event -/

section Step

variable {s t : Recorded Cb} {kind : Kind} {cb : Cb} {token : BitVec 32}

theorem callbacks_put (fb : Framebuffer Cb) (m : Callbacks 32 Cb) (next : BitVec 32)
    (kind kind' : Kind) :
    (fb.put m next kind).callbacks kind' = if kind' = kind then m else fb.callbacks kind' := by
  cases kind <;> cases kind' <;> rfl

theorem step_add_run (kind : Kind) (cb : Cb) (s : System Cb) :
    (step (.add kind cb)).run s = .ok (some s.fb.nextToken) { s with
      fb := s.fb.put (Tokens.emplace (s.fb.callbacks kind) s.fb.nextToken cb) s.fb.nextToken
        kind } := by
  cases kind <;> rfl

theorem step_remove_run (kind : Kind) (token : BitVec 32) (s : System Cb) :
    (step (.remove kind token)).run s = .ok none { s with
      fb := s.fb.put ((s.fb.callbacks kind).erase token) s.fb.nextCallbackToken kind } := by
  cases kind <;> rfl

theorem requestFbFlip_run (index : Fin 2) (flipOk : Bool) (s : System Cb) :
    ∃ t, t.fb.callbacks = s.fb.callbacks ∧
      ((requestFbFlip index flipOk).run s = .ok () t ∨
        ∃ e, (requestFbFlip index flipOk).run s = .error (.thrown e) t) := by
  by_cases hok : (flipOk && s.display.pending.isNone) = true
  · have hrun : (requestFbFlip index flipOk).run s = .ok () { s with
        fb.currentFb := index
        display.pending := some index
        display.accesses := s.display.accesses ++ [.flip index] } := by
      simp_all [requestFbFlip]
    refine ⟨_, ?_, .inl hrun⟩
    rfl
  · have hrun : (requestFbFlip index flipOk).run s
        = .error (.thrown (.systemError "drmModePageFlip")) { s with
          display.accesses := s.display.accesses ++ [.flip index] } := by
      simp_all [requestFbFlip]
    refine ⟨_, ?_, .inr ⟨_, hrun⟩⟩
    rfl

/-- A page flip leaves the tables alone, whichever way it ends. -/
theorem pageFlipHandler_run (flipOk : Bool) (s : System Cb) :
    ∃ t, t.fb.callbacks = s.fb.callbacks ∧
      ((pageFlipHandler flipOk).run s = .ok () t ∨
        ∃ e, (pageFlipHandler flipOk).run s = .error (.thrown e) t) := by
  let nextFb : Fin 2 := if s.fb.currentFb ≠ 0 then 1 else 0
  have hdraw := forM_swapCallback_run nextFb s.fb.swapCallbacks.entries
    { s with fb.backbuffer := nextFb }
  let drawn : System Cb := { s with
    fb.backbuffer := nextFb
    display.accesses := s.display.accesses ++
      List.replicate s.fb.swapCallbacks.entries.length (.draw nextFb s.display.scanout) }
  have hrun : (pageFlipHandler flipOk).run s = (requestFbFlip nextFb flipOk).run drawn := by
    rw [← forM_calls_swap] at hdraw
    exact run_bind_of_ok hdraw
  rw [hrun]
  exact requestFbFlip_run nextFb flipOk drawn

theorem step_verticalBlank_run (flipOk : Bool) (s : System Cb) :
    ∃ t, (step (.verticalBlank flipOk)).run s = .ok none t ∧
      t.fb.callbacks = s.fb.callbacks := by
  cases hpending : s.display.pending with
  | none => exact ⟨s, by simp [step, verticalBlank, hpending], rfl⟩
  | some index =>
      obtain ⟨t, hsame, hrun | ⟨e, hrun⟩⟩ := pageFlipHandler_run flipOk { s with
        display.scanout := index
        display.pending := none }
      · exact ⟨t, by simp [step, verticalBlank, hpending, catching_run_ok hrun], hsame⟩
      · exact ⟨t, by simp [step, verticalBlank, hpending, catching_run_thrown hrun], hsame⟩

theorem nextToken_ne_zero (fb : Framebuffer Cb) : fb.nextToken ≠ 0 := by
  rw [Framebuffer.nextToken]
  split
  · rename_i hzero
    rw [hzero]
    decide
  · assumption

/-- Between two events the tables hold what is installed. -/
def Serves (s : Recorded Cb) : Prop :=
  ∀ kind, Holds (s.1.fb.callbacks kind) (history kind s.2)

theorem serves_initial : Serves ((initial, []) : Recorded Cb) := by
  intro kind
  cases kind with
  | swap => exact holds_empty
  | vblank => exact holds_empty

theorem history_snoc (kind : Kind) (log : List (Event Cb × Option (BitVec 32))) (x : Event Cb)
    (w : Option (BitVec 32)) :
    history kind (log ++ [(x, w)]) = history kind log ++ entry kind (x, w) := by
  rw [history, List.flatMap_append, List.flatMap_singleton, history]

theorem entry_add (kind kind' : Kind) (cb : Cb) (token : BitVec 32) :
    entry kind' (.add kind cb, some token) = if kind' = kind then [.added token cb] else [] := by
  cases kind <;> rfl

theorem entry_remove (kind kind' : Kind) (token : BitVec 32) (w : Option (BitVec 32)) :
    entry kind' ((.remove kind token : Event Cb), w)
      = if kind' = kind then [.removed token] else [] := by
  cases kind <;> rfl

/-- In a framebuffer that serves, the handlers call what is installed. -/
theorem Serves.called (h : Serves s) (kind : Kind) (token : BitVec 32) (cb : Cb) :
    (∃ index, (token, cb, index) ∈ s.1.fb.calls kind) ↔
      Installed (history kind s.2) token cb := by
  rw [← (h kind).mem_entries_iff]
  simp [Framebuffer.calls]

/-- Every event is a page flip, an add or a removal. -/
theorem event_cases (x : Event Cb) :
    (∃ flipOk, x = .verticalBlank flipOk) ∨ (∃ kind cb, x = .add kind cb) ∨
      ∃ kind token, x = .remove kind token := by
  cases x with
  | verticalBlank flipOk => exact .inl ⟨flipOk, rfl⟩
  | addSwapCallback cb => exact .inr (.inl ⟨.swap, cb, rfl⟩)
  | addVBlankCallback cb => exact .inr (.inl ⟨.vblank, cb, rfl⟩)
  | removeSwapCallback token => exact .inr (.inr ⟨.swap, token, rfl⟩)
  | removeVBlankCallback token => exact .inr (.inr ⟨.vblank, token, rfl⟩)

theorem add_inj {kind kind' : Kind} {cb cb' : Cb}
    (h : (.add kind cb : Event Cb) = .add kind' cb') : kind = kind' ∧ cb = cb' := by
  cases kind <;> cases kind' <;> cases h <;> exact ⟨rfl, rfl⟩

theorem remove_ne_add {kind kind' : Kind} {token : BitVec 32} {cb : Cb} :
    (.remove kind token : Event Cb) ≠ .add kind' cb := by
  cases kind <;> cases kind' <;> nofun

theorem verticalBlank_ne_add {flipOk : Bool} {kind : Kind} {cb : Cb} :
    (.verticalBlank flipOk : Event Cb) ≠ .add kind cb := by
  cases kind <;> nofun

/-- One table is changed, and what happened is written down for it. -/
theorem Serves.put {s : System Cb} {log : List (Event Cb × Option (BitVec 32))}
    (h : Serves (s, log)) {x : Event Cb} {w : Option (BitVec 32)} {m : Callbacks 32 Cb}
    {es : List (Entry (BitVec 32) Cb)} (next : BitVec 32)
    (hentry : ∀ kind', entry kind' (x, w) = if kind' = kind then es else [])
    (hholds : Holds m (history kind log ++ es)) :
    Serves ({ s with fb := s.fb.put m next kind }, log ++ [(x, w)]) := by
  intro kind'
  rw [history_snoc, hentry, callbacks_put]
  by_cases hkind : kind' = kind
  · subst hkind
    rw [if_pos rfl, if_pos rfl]
    exact hholds
  · rw [if_neg hkind, if_neg hkind, List.append_nil]
    exact h kind'

theorem Serves.verticalBlank {s t : System Cb} {log : List (Event Cb × Option (BitVec 32))}
    (h : Serves (s, log)) (hsame : t.fb.callbacks = s.fb.callbacks) (flipOk : Bool) :
    Serves (t, log ++ [(.verticalBlank flipOk, none)]) := by
  intro kind
  rw [history_snoc, hsame]
  exact (List.append_nil _).symm ▸ h kind

theorem Serves.takes (h : Serves s) {x : Event Cb} (hunused : Unused s x) :
    ∃ w t, (recorded step x).run s = .ok w t ∧ Registers s x w t ∧ Serves t := by
  obtain ⟨s, log⟩ := s
  rcases event_cases x with ⟨flipOk, rfl⟩ | ⟨kind, cb, rfl⟩ | ⟨kind, token, rfl⟩
  · obtain ⟨t, hrun, hsame⟩ := step_verticalBlank_run flipOk s
    have ht := h.verticalBlank hsame flipOk
    refine ⟨_, _, recorded_run_of_ok hrun log, ⟨?_, ht.called⟩, ht⟩
    intro kind cb heq
    exact absurd heq verticalBlank_ne_add
  · have hfree := hunused kind cb rfl
    have ht := h.put s.fb.nextToken (entry_add kind · cb s.fb.nextToken)
      ((h kind).emplace hfree cb)
    refine ⟨_, _, recorded_run_of_ok (step_add_run kind cb s) log, ⟨?_, ht.called⟩, ht⟩
    intro kind' cb' heq
    obtain ⟨rfl, rfl⟩ := add_inj heq
    exact ⟨_, rfl, nextToken_ne_zero s.fb, (h kind).notMem_iff.mp hfree⟩
  · have ht := h.put s.fb.nextCallbackToken (entry_remove kind · token none)
      ((h kind).erase token)
    refine ⟨_, _, recorded_run_of_ok (step_remove_run kind token s) log, ⟨?_, ht.called⟩, ht⟩
    intro kind' cb' heq
    exact absurd heq remove_ne_add

/-- The token that an add returns is the one that it did not look up. -/
theorem Serves.unused (h : Serves s) {x : Event Cb} {w : Option (BitVec 32)}
    (hrun : (recorded step x).run s = .ok w t) (hregisters : Registers s x w t) : Unused s x := by
  rintro kind cb rfl
  obtain ⟨token, rfl, _, hfresh⟩ := hregisters.added kind cb rfl
  have hstep := (recorded_run_eq_ok hrun).1
  rw [step_add_run] at hstep
  injection hstep with htoken
  obtain rfl := Option.some.inj htoken
  exact (h kind).notMem_iff.mpr hfresh

end Step

/-! ## Every run -/

/-- Every event does what it should in the runs in which no add takes a token of
its own table, and in no others. -/
theorem along_registers_iff (events : List (Event Cb)) :
    Along (recorded step) Registers (initial, []) events ↔
      Wherever (recorded step) Unused (initial, []) events :=
  along_iff_wherever (fun _ _ h hunused => h.takes hunused)
    (fun _ _ _ _ h hrun hregisters => h.unused hrun hregisters) serves_initial

/-! ## Once around -/

/-- `n` callbacks for vertical blanks, each removed before the next is added,
from the counter's value `k` on. -/
def churn (cb : Cb) : (k n : Nat) → List (Event Cb)
  | _, 0 => []
  | k, n + 1 =>
      .addVBlankCallback cb :: .removeVBlankCallback (BitVec.ofNat 32 (k + 1)) ::
        churn cb (k + 1) n

section Churn

variable {s t : Recorded Cb} {cb : Cb} {token : BitVec 32} {w : Option (BitVec 32)} {k n : Nat}
  {events : List (Event Cb)}

theorem nextToken_of_lt {fb : Framebuffer Cb} (h : fb.nextCallbackToken = BitVec.ofNat 32 k)
    (hk : k + 1 < 2 ^ 32) : fb.nextToken = BitVec.ofNat 32 (k + 1) := by
  have hnext : fb.nextCallbackToken + 1 = BitVec.ofNat 32 (k + 1) := by
    rw [h, BitVec.ofNat_add]
    rfl
  have hne : BitVec.ofNat 32 (k + 1) ≠ 0 := by
    intro hzero
    have hmod := congrArg BitVec.toNat hzero
    rw [BitVec.toNat_ofNat, Nat.mod_eq_of_lt hk] at hmod
    exact Nat.succ_ne_zero k hmod
  rw [Framebuffer.nextToken, hnext, if_neg hne]

theorem add_vblank_run (h : (recorded step (.add .vblank cb)).run s = .ok w t) :
    t.1.fb.nextCallbackToken = s.1.fb.nextToken ∧ history .swap t.2 = history .swap s.2 := by
  obtain ⟨hstep, hlog⟩ := recorded_run_eq_ok h
  rw [step_add_run] at hstep
  injection hstep with hw ht
  rw [← ht, hlog, history_snoc, ← hw, entry_add]
  exact ⟨rfl, List.append_nil _⟩

theorem remove_vblank_run (h : (recorded step (.remove .vblank token)).run s = .ok w t) :
    t.1.fb.nextCallbackToken = s.1.fb.nextCallbackToken ∧
      history .swap t.2 = history .swap s.2 := by
  obtain ⟨hstep, hlog⟩ := recorded_run_eq_ok h
  rw [step_remove_run] at hstep
  injection hstep with hw ht
  rw [← ht, hlog, history_snoc, entry_remove]
  exact ⟨rfl, List.append_nil _⟩

/-- The callbacks for page flips stay, and the counter goes on. -/
theorem along_churn (hk : k + n < 2 ^ 32) (hnext : s.1.fb.nextCallbackToken = BitVec.ofNat 32 k)
    (h : Along (recorded step) Registers s (churn cb k n ++ events)) :
    ∃ t : Recorded Cb, t.1.fb.nextCallbackToken = BitVec.ofNat 32 (k + n) ∧
      history .swap t.2 = history .swap s.2 ∧ Along (recorded step) Registers t events := by
  induction n generalizing s k with
  | zero => exact ⟨s, hnext, rfl, h⟩
  | succ n ih =>
      obtain ⟨_, u, hadd, _, _, v, hremove, _, hrest⟩ := h
      obtain ⟨hunext, huhistory⟩ := add_vblank_run hadd
      obtain ⟨hvnext, hvhistory⟩ := remove_vblank_run hremove
      have hnext' : v.1.fb.nextCallbackToken = BitVec.ofNat 32 (k + 1) := by
        rw [hvnext, hunext, nextToken_of_lt hnext (by omega)]
      obtain ⟨t, htnext, hthistory, ht⟩ := ih (by omega) hnext' hrest
      refine ⟨t, ?_, ?_, ht⟩
      · rw [htnext, Nat.add_right_comm, Nat.add_assoc]
      · rw [hthistory, hvhistory, huhistory]

end Churn

/-- A callback for page flips keeps its token while the counter goes round, and
the next one gets the same. -/
theorem wrapped_not_registers :
    ¬ Along (recorded step) Registers (initial, [])
      (.addSwapCallback true :: (churn false 1 (2 ^ 32 - 2) ++ [.addSwapCallback false])) := by
  rintro ⟨_, s, hfirst, _, h⟩
  have hs : s.1.fb.nextCallbackToken = BitVec.ofNat 32 1 ∧
      history .swap s.2 = [.added 1 true] := by
    cases hfirst
    exact ⟨rfl, rfl⟩
  obtain ⟨t, hnext, hhistory, w, u, hadd, hregisters, _⟩ := along_churn (by decide) hs.1 h
  obtain ⟨token, rfl, _, hfresh⟩ := hregisters.added .swap false rfl
  obtain ⟨hstep, _⟩ := recorded_run_eq_ok hadd
  have htoken : t.1.fb.nextToken = 1 := by
    rw [Framebuffer.nextToken, hnext]
    rfl
  have hanswer : some token = some t.1.fb.nextToken := by
    have hrun := hstep.symm.trans (step_add_run .swap false t.1)
    injection hrun
  obtain rfl := Option.some.inj hanswer
  refine hfresh true ?_
  rw [htoken, hhistory, hs.2]
  exact ⟨[], [], rfl, List.not_mem_nil⟩

end Gui
