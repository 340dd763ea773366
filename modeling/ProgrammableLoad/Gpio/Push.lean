/-
# `Gpio.Push` — what `updatePartialRegister` does to the chip

A push ends in one of three ways: it returns with every changed half written,
it throws with nothing written, or, when both halves have changed, it throws
after the lower half.  `updatePartialRegister_cases` is that statement; the
lemmas before it say, by the halves that have changed and the outcomes to come,
which of the three it is.

`LowerKnown` and `UpperKnown` say of the two halves of a port that comparing
with `last` decides rightly whether the chip is up to date.
-/
import ProgrammableLoad.Gpio.Pca9535

namespace Gpio

open Cpp Program

/-- Whether the next write fails. -/
def Bus.nextFails (bus : Bus) : Bool :=
  match bus.outcomes with
  | some _ :: _ => true
  | _ => false

/-- The chip's register of a port holds `v`, in both halves. -/
structure Bus.Holds (bus : Bus) (port : Port) (v : BitVec 16) : Prop where
  lower : bus.regs port.reg = lower v
  upper : bus.regs (port.reg + 1) = upper v

theorem Bus.Holds.word_eq {bus : Bus} {port : Port} {v : BitVec 16}
    (h : bus.Holds port v) : bus.word port = v := by
  rw [Bus.word, h.lower, h.upper, append_halves]

/-! ## The registers after a push -/

/-- The registers after every changed half of a port has been written. -/
def RegData.written (r : RegData) (port : Port) (regs : Register → Byte) :
    Register → Byte := fun a =>
  if a = port.reg ∧ r.lowerDirty = true then lower r.value
  else if a = port.reg + 1 ∧ r.upperDirty = true then upper r.value
  else regs a

theorem lowerDirty_eq_false_iff {r : RegData} :
    r.lowerDirty = false ↔ ∃ l, r.last = some l ∧ lower l = lower r.value := by
  cases h : r.last with
  | none => simp [RegData.lowerDirty, h]
  | some l => simp [RegData.lowerDirty, h, lower_eq_iff]

theorem upperDirty_eq_false_iff {r : RegData} :
    r.upperDirty = false ↔ ∃ l, r.last = some l ∧ upper l = upper r.value := by
  cases h : r.last with
  | none => simp [RegData.upperDirty, h]
  | some l => simp [RegData.upperDirty, h, upper_eq_iff]

theorem written_reg (r : RegData) (port : Port) (regs : Register → Byte) :
    r.written port regs port.reg
      = if r.lowerDirty = true then lower r.value else regs port.reg := by
  simp [RegData.written]

theorem written_reg_succ (r : RegData) (port : Port) (regs : Register → Byte) :
    r.written port regs (port.reg + 1)
      = if r.upperDirty = true then upper r.value else regs (port.reg + 1) := by
  simp [RegData.written]

theorem written_other (r : RegData) {port port' : Port} (regs : Register → Byte)
    (h : port' ≠ port) :
    r.written port regs port'.reg = regs port'.reg ∧
      r.written port regs (port'.reg + 1) = regs (port'.reg + 1) := by
  cases port <;> cases port' <;> simp_all [RegData.written, Port.reg]

/-- Pushing one port leaves what the chip holds for another. -/
theorem Bus.Holds.written_other {r : RegData} {port port' : Port} {bus : Bus}
    {v : BitVec 16} (h : bus.Holds port' v) (hne : port' ≠ port)
    (outcomes : List (Option BusError)) :
    (⟨r.written port bus.regs, outcomes⟩ : Bus).Holds port' v := by
  obtain ⟨hl, hu⟩ := Gpio.written_other r bus.regs hne
  exact ⟨hl.trans h.lower, hu.trans h.upper⟩

/-! ## Running a push -/

section Push

variable {s : Pca9535}

theorem writeReg_run_stored (reg : Register) (value : Byte)
    (h : s.bus.nextFails = false) :
    (writeReg reg value).run s
      = .ok () { s with bus := ⟨Function.update s.bus.regs reg value,
          s.bus.outcomes.tail⟩ } := by
  rcases hout : s.bus.outcomes with _ | ⟨_ | err, rest⟩
  · simp [writeReg, hout]
  · simp [writeReg, hout]
  · simp [Bus.nextFails, hout] at h

theorem writeReg_run_failed (reg : Register) (value : Byte)
    (h : s.bus.nextFails = true) :
    ∃ e, (writeReg reg value).run s
      = .error (.thrown e) { s with bus.outcomes := s.bus.outcomes.tail } := by
  rcases hout : s.bus.outcomes with _ | ⟨_ | err, rest⟩
  · simp [Bus.nextFails, hout] at h
  · simp [Bus.nextFails, hout] at h
  · exact ⟨_, by simp [writeReg, hout]; rfl⟩

/-- The driver after a complete push of a port. -/
def Pca9535.push (s : Pca9535) (port : Port) (outcomes : List (Option BusError)) :
    Pca9535 where
  ports := Function.update s.ports port ⟨(s.ports port).value, some (s.ports port).value⟩
  bus := ⟨(s.ports port).written port s.bus.regs, outcomes⟩

theorem written_clean {r : RegData} (port : Port) (regs : Register → Byte)
    (hl : r.lowerDirty = false) (hu : r.upperDirty = false) : r.written port regs = regs := by
  funext a
  simp [RegData.written, hl, hu]

theorem written_lower {r : RegData} (port : Port) (regs : Register → Byte)
    (hl : r.lowerDirty = true) (hu : r.upperDirty = false) :
    r.written port regs = Function.update regs port.reg (lower r.value) := by
  funext a
  simp [RegData.written, hl, hu, Function.update_apply]

theorem written_upper {r : RegData} (port : Port) (regs : Register → Byte)
    (hl : r.lowerDirty = false) (hu : r.upperDirty = true) :
    r.written port regs = Function.update regs (port.reg + 1) (upper r.value) := by
  funext a
  simp [RegData.written, hl, hu, Function.update_apply]

theorem written_both {r : RegData} (port : Port) (regs : Register → Byte)
    (hl : r.lowerDirty = true) (hu : r.upperDirty = true) :
    r.written port regs = Function.update (Function.update regs port.reg (lower r.value))
      (port.reg + 1) (upper r.value) := by
  funext a
  by_cases ha : a = port.reg
  · subst ha
    simp [RegData.written, hl]
  · simp [RegData.written, hu, Function.update_apply, ha]

variable {port : Port}

theorem push_run_clean (hl : (s.ports port).lowerDirty = false)
    (hu : (s.ports port).upperDirty = false) :
    (updatePartialRegister port).run s = .ok () (s.push port s.bus.outcomes) := by
  simp [updatePartialRegister, hl, hu, Pca9535.push, written_clean]

theorem push_run_lower_stored (hl : (s.ports port).lowerDirty = true)
    (hu : (s.ports port).upperDirty = false) (h : s.bus.nextFails = false) :
    (updatePartialRegister port).run s = .ok () (s.push port s.bus.outcomes.tail) := by
  simp [updatePartialRegister, hl, hu, Pca9535.push, written_lower,
    writeReg_run_stored _ _ h]

theorem push_run_upper_stored (hl : (s.ports port).lowerDirty = false)
    (hu : (s.ports port).upperDirty = true) (h : s.bus.nextFails = false) :
    (updatePartialRegister port).run s = .ok () (s.push port s.bus.outcomes.tail) := by
  simp [updatePartialRegister, hl, hu, Pca9535.push, written_upper,
    writeReg_run_stored _ _ h]

/-- Whichever half comes first, a failure of the first write changes nothing. -/
theorem push_run_first_failed (hd : (s.ports port).lowerDirty = true ∨
      (s.ports port).upperDirty = true) (h : s.bus.nextFails = true) :
    ∃ e, (updatePartialRegister port).run s
      = .error (.thrown e) { s with bus.outcomes := s.bus.outcomes.tail } := by
  obtain ⟨el, hel⟩ := writeReg_run_failed port.reg (lower (s.ports port).value) h
  obtain ⟨eu, heu⟩ := writeReg_run_failed (port.reg + 1) (upper (s.ports port).value) h
  cases hl : (s.ports port).lowerDirty with
  | true =>
      refine ⟨el, ?_⟩
      cases hu : (s.ports port).upperDirty with
      | true => simp [updatePartialRegister, hl, hu, writeReg16, hel]
      | false => simp [updatePartialRegister, hl, hu, hel]
  | false =>
      have hu : (s.ports port).upperDirty = true := by simpa [hl] using hd
      exact ⟨eu, by simp [updatePartialRegister, hl, hu, heu]⟩

theorem push_run_both (hl : (s.ports port).lowerDirty = true)
    (hu : (s.ports port).upperDirty = true) (h : s.bus.nextFails = false) :
    if (⟨s.bus.regs, s.bus.outcomes.tail⟩ : Bus).nextFails then
      ∃ e, (updatePartialRegister port).run s = .error (.thrown e)
        { s with bus := ⟨Function.update s.bus.regs port.reg (lower (s.ports port).value),
            s.bus.outcomes.tail.tail⟩ }
    else (updatePartialRegister port).run s
      = .ok () (s.push port s.bus.outcomes.tail.tail) := by
  have hfirst := writeReg_run_stored port.reg (lower (s.ports port).value) h
  split
  case isTrue h2 =>
      have hfails : (⟨Function.update s.bus.regs port.reg (lower (s.ports port).value),
          s.bus.outcomes.tail⟩ : Bus).nextFails = true := h2
      obtain ⟨e, hsecond⟩ := writeReg_run_failed
        (s := { s with bus := ⟨Function.update s.bus.regs port.reg
          (lower (s.ports port).value), s.bus.outcomes.tail⟩ })
        (port.reg + 1) (upper (s.ports port).value) hfails
      exact ⟨e, by simp [updatePartialRegister, hl, hu, writeReg16, hfirst, hsecond]⟩
  case isFalse h2 =>
      have hstored : (⟨Function.update s.bus.regs port.reg (lower (s.ports port).value),
          s.bus.outcomes.tail⟩ : Bus).nextFails = false := Bool.eq_false_iff.mpr h2
      have hsecond := writeReg_run_stored
        (s := { s with bus := ⟨Function.update s.bus.regs port.reg
          (lower (s.ports port).value), s.bus.outcomes.tail⟩ })
        (port.reg + 1) (upper (s.ports port).value) hstored
      simp [updatePartialRegister, hl, hu, writeReg16, hfirst, hsecond, Pca9535.push,
        written_both]

theorem push_ports_self (outcomes : List (Option BusError)) :
    (s.push port outcomes).ports port
      = ⟨(s.ports port).value, some (s.ports port).value⟩ := by
  simp [Pca9535.push]

theorem push_ports_ne {port' : Port} (outcomes : List (Option BusError))
    (h : port' ≠ port) : (s.push port outcomes).ports port' = s.ports port' := by
  simp [Pca9535.push, h]

/-- A push that returns has written every changed half; one that throws may
have written the lower half of two. -/
theorem updatePartialRegister_cases (s : Pca9535) (port : Port) :
    (∃ outcomes, (updatePartialRegister port).run s = .ok () (s.push port outcomes)) ∨
    (∃ e regs outcomes, (updatePartialRegister port).run s
        = .error (.thrown e) { s with bus := ⟨regs, outcomes⟩ } ∧
      (regs = s.bus.regs ∨ (s.ports port).lowerDirty = true ∧
        regs = Function.update s.bus.regs port.reg (lower (s.ports port).value))) := by
  cases hf : s.bus.nextFails with
  | true =>
      by_cases hd : (s.ports port).lowerDirty = true ∨ (s.ports port).upperDirty = true
      · obtain ⟨e, hrun⟩ := push_run_first_failed hd hf
        exact Or.inr ⟨e, _, _, hrun, Or.inl rfl⟩
      · simp only [not_or, Bool.not_eq_true] at hd
        exact Or.inl ⟨_, push_run_clean hd.1 hd.2⟩
  | false =>
      cases hl : (s.ports port).lowerDirty <;> cases hu : (s.ports port).upperDirty
      case false.false => exact Or.inl ⟨_, push_run_clean hl hu⟩
      case false.true => exact Or.inl ⟨_, push_run_upper_stored hl hu hf⟩
      case true.false => exact Or.inl ⟨_, push_run_lower_stored hl hu hf⟩
      case true.true =>
          have hboth := push_run_both hl hu hf
          split at hboth
          · obtain ⟨e, hrun⟩ := hboth
            exact Or.inr ⟨e, _, _, hrun, Or.inr ⟨rfl, rfl⟩⟩
          · exact Or.inl ⟨_, hboth⟩

/-- With no failure to come, a push returns. -/
theorem push_run_quiet (port : Port) (h : s.bus.outcomes = []) :
    (updatePartialRegister port).run s = .ok () (s.push port []) := by
  have hf : s.bus.nextFails = false := by simp [Bus.nextFails, h]
  cases hl : (s.ports port).lowerDirty <;> cases hu : (s.ports port).upperDirty
  case false.false => simpa [h] using push_run_clean hl hu
  case false.true => simpa [h] using push_run_upper_stored hl hu hf
  case true.false => simpa [h] using push_run_lower_stored hl hu hf
  case true.true =>
      have hboth := push_run_both hl hu hf
      rw [if_neg (by simp [Bus.nextFails, h])] at hboth
      simpa [h] using hboth

/-! ## What the driver knows of the chip -/

/-- The upper half of the chip is the one of the last complete push. -/
def UpperKnown (s : Pca9535) (port : Port) : Prop :=
  ∀ l, (s.ports port).last = some l → s.bus.regs (port.reg + 1) = upper l

/-- The lower half of the chip is the one of the last complete push, or the
wanted one differs from it. -/
def LowerKnown (s : Pca9535) (port : Port) : Prop :=
  ∀ l, (s.ports port).last = some l →
    s.bus.regs port.reg = lower l ∨ lower (s.ports port).value ≠ lower l

/-- A push that returns leaves the chip with the upper half wanted, and with the
lower half wanted unless it took a stale one for clean. -/
theorem push_upper (h : UpperKnown s port) (outcomes : List (Option BusError)) :
    (s.push port outcomes).bus.regs (port.reg + 1) = upper (s.ports port).value := by
  show (s.ports port).written port s.bus.regs (port.reg + 1) = _
  rw [written_reg_succ]
  cases hu : (s.ports port).upperDirty with
  | true => rfl
  | false =>
      obtain ⟨l, hlast, heq⟩ := upperDirty_eq_false_iff.mp hu
      rw [if_neg (by decide), h l hlast, heq]

theorem push_lower (h : LowerKnown s port) (outcomes : List (Option BusError)) :
    (s.push port outcomes).bus.regs port.reg = lower (s.ports port).value := by
  show (s.ports port).written port s.bus.regs port.reg = _
  rw [written_reg]
  cases hl : (s.ports port).lowerDirty with
  | true => rfl
  | false =>
      obtain ⟨l, hlast, heq⟩ := lowerDirty_eq_false_iff.mp hl
      rw [if_neg (by decide), ← heq]
      exact (h l hlast).resolve_right (fun hne => hne heq.symm)

theorem push_known (hl : LowerKnown s port) (hu : UpperKnown s port)
    (outcomes : List (Option BusError)) :
    (s.push port outcomes).bus.Holds port (s.ports port).value :=
  ⟨push_lower hl outcomes, push_upper hu outcomes⟩

/-- After a push the chip holds the value pushed, if it held the last one. -/
theorem push_holds (outcomes : List (Option BusError))
    (h : ∀ l, (s.ports port).last = some l → s.bus.Holds port l) :
    (s.push port outcomes).bus.Holds port (s.ports port).value :=
  push_known (fun l hl => Or.inl (h l hl).lower) (fun l hl => (h l hl).upper) outcomes

/-- Where the chip holds the last value of a port, both halves are known. -/
theorem known_of_holds {v : BitVec 16} (hlast : (s.ports port).last = some v)
    (h : s.bus.Holds port v) : LowerKnown s port ∧ UpperKnown s port := by
  constructor
  · intro l hl
    rw [hlast] at hl
    cases hl
    exact Or.inl h.lower
  · intro l hl
    rw [hlast] at hl
    cases hl
    exact h.upper

/-- A push that throws keeps what is known of a port. -/
theorem known_of_failed {regs : Register → Byte} {outcomes : List (Option BusError)}
    (hregs : regs = s.bus.regs ∨ (s.ports port).lowerDirty = true ∧
      regs = Function.update s.bus.regs port.reg (lower (s.ports port).value)) :
    (LowerKnown s port → LowerKnown { s with bus := ⟨regs, outcomes⟩ } port) ∧
      (UpperKnown s port → UpperKnown { s with bus := ⟨regs, outcomes⟩ } port) := by
  rcases hregs with rfl | ⟨hdirty, rfl⟩
  · exact ⟨id, id⟩
  · constructor
    · intro _ l hlast
      right
      intro heq
      have hclean := lowerDirty_eq_false_iff.mpr ⟨l, hlast, heq.symm⟩
      rw [hdirty] at hclean
      cases hclean
    · intro h l hlast
      show Function.update s.bus.regs port.reg _ (port.reg + 1) = _
      rw [Function.update_of_ne (by simp)]
      exact h l hlast

end Push

end Gpio
