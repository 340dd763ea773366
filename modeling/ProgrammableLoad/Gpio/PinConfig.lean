/-
# `Gpio.PinConfig` — what the configuration registers say about the pins

With every write succeeding, the chip holds the wanted values of its
configuration and polarity registers after each call, so the question is what
these values become.  A configuration bit is cleared by every call of
`configurePin` on its pin, whatever the mode, and a polarity bit is never set.
The registers therefore say what the modes said if and only if no pin was last
configured as an input, nor last as an inverted one.
-/
import ProgrammableLoad.Theory.Runs
import ProgrammableLoad.Gpio.Push

namespace Gpio

open Cpp Program

/-! ## What the modes say -/

/-- The direction of the mode is `PinMode::Input`. -/
def PinMode.isInput (mode : PinMode) : Bool :=
  mode &&& (PinMode.output ||| PinMode.outputOpenDrain) == 0

def PinMode.isInverted (mode : PinMode) : Bool := mode &&& PinMode.inverted != 0

/-- The modes a pin was configured with, in order. -/
def modes (calls : List Call) (pin : Fin 16) : List PinMode :=
  calls.filterMap fun
    | .configurePin p mode => if p = pin then some mode else none
    | .setPinState _ _ => none

def lastMode (calls : List Call) (pin : Fin 16) : Option PinMode :=
  (modes calls pin).getLast?

def lastInput (calls : List Call) (pin : Fin 16) : Option PinMode :=
  ((modes calls pin).filter PinMode.isInput).getLast?

/-- The registers mean what the modes said: a configuration bit is set if the
last mode of its pin was an input or there was none, a polarity bit if the last
input mode of its pin was inverted. -/
structure MeansModes (calls : List Call) (bus : Bus) : Prop where
  config : ∀ pin : Fin 16, (bus.word .cfg).getLsbD pin = true ↔
    ∀ mode, lastMode calls pin = some mode → mode.isInput = true
  polarity : ∀ pin : Fin 16, (bus.word .inversion).getLsbD pin = true ↔
    ∃ mode, lastInput calls pin = some mode ∧ mode.isInverted = true

/-! ## Runs without a failure -/

/-- No failure to come, and the chip in step with the driver. -/
structure Ready (s : Pca9535) (cfg : BitVec 16) : Prop where
  quiet : s.bus.outcomes = []
  inversion_eq : s.ports .inversion = ⟨0, some 0⟩
  cfg_eq : s.ports .cfg = ⟨cfg, some cfg⟩
  inversion_holds : s.bus.Holds .inversion 0
  cfg_holds : s.bus.Holds .cfg cfg

/-- What a call makes of the wanted configuration. -/
def Call.config (cfg : BitVec 16) : Call → BitVec 16
  | .configurePin pin _ => cfg &&& ~~~bit pin.val
  | .setPinState _ _ => cfg

section Step

variable {s : Pca9535} {cfg : BitVec 16}

theorem updatePinConfig_quiet (h : s.bus.outcomes = []) :
    updatePinConfig.run s = .ok () ((s.push .inversion []).push .cfg []) := by
  have hinv := push_run_quiet .inversion h
  have hcfg := push_run_quiet (s := s.push .inversion []) .cfg rfl
  simp [updatePinConfig, hinv, hcfg]

/-- Pushing both ports makes the chip ready for the values wanted, if it held
the last ones. -/
theorem ready_of_push (hinv : (s.ports .inversion).value = 0)
    (hcfg : (s.ports .cfg).value = cfg)
    (h : ∀ port l, port ≠ .output → (s.ports port).last = some l → s.bus.Holds port l) :
    Ready ((s.push .inversion []).push .cfg []) cfg where
  quiet := rfl
  inversion_eq := by
    rw [push_ports_ne [] (by decide), push_ports_self, hinv]
  cfg_eq := by
    rw [push_ports_self, push_ports_ne [] (by decide), hcfg]
  inversion_holds := by
    have hpush := push_holds [] (h .inversion · (by decide))
    rw [hinv] at hpush
    exact hpush.written_other (by decide) []
  cfg_holds := by
    have hlast : ∀ l, ((s.push .inversion []).ports .cfg).last = some l →
        (s.push .inversion []).bus.Holds .cfg l := by
      intro l hl
      rw [push_ports_ne [] (by decide)] at hl
      exact (h .cfg l (by decide) hl).written_other (by decide) []
    have hpush := push_holds [] hlast
    rwa [push_ports_ne [] (by decide), hcfg] at hpush

theorem exec_quiet (hs : Ready s cfg) (c : Call) :
    ∃ t, c.exec.run s = .ok () t ∧ Ready t (c.config cfg) := by
  have hlast : ∀ port l, port ≠ .output → (s.ports port).last = some l →
      s.bus.Holds port l := by
    intro port l hne hl
    cases port with
    | output => exact absurd rfl hne
    | inversion =>
        rw [hs.inversion_eq] at hl
        cases hl
        exact hs.inversion_holds
    | cfg =>
        rw [hs.cfg_eq] at hl
        cases hl
        exact hs.cfg_holds
  cases c with
  | configurePin pin mode =>
      refine ⟨_, (configurePin_run s pin mode).trans (updatePinConfig_quiet hs.quiet),
        ready_of_push ?_ ?_ ?_⟩
      · simp [hs.inversion_eq]
      · simp [hs.cfg_eq, Call.config]
      · intro port l hne hl
        apply hlast port l hne
        by_cases hp : port = .cfg
        · subst hp
          simpa using hl
        · simpa [hp] using hl
  | setPinState pin asserted =>
      refine ⟨_, (setPinState_run s pin asserted).trans (push_run_quiet .output hs.quiet), ?_⟩
      exact
        { quiet := rfl
          inversion_eq := by simp [push_ports_ne, hs.inversion_eq]
          cfg_eq := by simp [push_ports_ne, hs.cfg_eq, Call.config]
          inversion_holds := hs.inversion_holds.written_other (by decide) []
          cfg_holds := hs.cfg_holds.written_other (by decide) [] }

theorem construct_quiet (regs : Register → Byte) :
    ∃ t, construct.run (allocated ⟨regs, []⟩) = .ok () t ∧ Ready t 0xffff := by
  have hset : construct.run (allocated ⟨regs, []⟩) = updatePinConfig.run
      (((allocated ⟨regs, []⟩).want .cfg 0xffff |>.want .inversion 0).want .output 0) := rfl
  refine ⟨_, hset.trans (updatePinConfig_quiet rfl), ready_of_push ?_ ?_ ?_⟩
  · simp
  · simp
  · intro port l _ hl
    cases port <;> simp [allocated] at hl

end Step

/-! ## The configuration after a run -/

theorem steps_quiet : ∀ (calls : List Call) {s : Pca9535} {cfg : BitVec 16}, Ready s cfg →
    ∃ outs t, Steps Call.exec s calls outs t ∧ Ready t (calls.foldl Call.config cfg)
  | [], s, _, hs => ⟨[], s, .nil s, hs⟩
  | c :: calls, _, _, hs => by
      obtain ⟨u, hrun, hu⟩ := exec_quiet hs c
      obtain ⟨outs, t, hsteps, ht⟩ := steps_quiet calls hu
      exact ⟨() :: outs, t, .cons hrun hsteps, ht⟩

/-- A pin's bit stays as it was until the first mode of the pin, and is clear
from then on. -/
theorem getLsbD_config (pin : Fin 16) : ∀ (calls : List Call) (cfg : BitVec 16),
    (calls.foldl Call.config cfg).getLsbD pin
      = (cfg.getLsbD pin && (modes calls pin).isEmpty)
  | [], cfg => by simp [modes]
  | .configurePin p mode :: calls, cfg => by
      rw [List.foldl_cons, getLsbD_config pin calls]
      have hbit : ((Call.configurePin p mode).config cfg).getLsbD pin
          = (cfg.getLsbD pin && !decide (pin = p)) := by
        simp only [Call.config, BitVec.getLsbD_and, BitVec.getLsbD_not, getLsbD_bit]
        simp
      rw [hbit]
      by_cases hp : p = pin
      · simp [modes, hp]
      · simp [modes, hp, Ne.symm hp]
  | .setPinState p asserted :: calls, cfg => by
      rw [List.foldl_cons, getLsbD_config pin calls]
      simp [modes, Call.config]

section Means

variable {calls : List Call} {t : Pca9535}

theorem config_bit (ht : Ready t (calls.foldl Call.config 0xffff)) (pin : Fin 16) :
    (t.bus.word .cfg).getLsbD pin = (modes calls pin).isEmpty := by
  have hones : ∀ pin : Fin 16, (0xffff : BitVec 16).getLsbD pin = true := by decide
  rw [ht.cfg_holds.word_eq, getLsbD_config, hones, Bool.true_and]

theorem polarity_bit {cfg : BitVec 16} (ht : Ready t cfg) (pin : Fin 16) :
    (t.bus.word .inversion).getLsbD pin = false := by
  rw [ht.inversion_holds.word_eq]
  exact BitVec.getLsbD_zero

theorem isEmpty_modes_iff (pin : Fin 16) :
    (modes calls pin).isEmpty = true ↔ lastMode calls pin = none := by
  rw [List.isEmpty_iff, lastMode, List.getLast?_eq_none_iff]

/-- The configuration bit of a pin is clear as soon as the pin has a mode. -/
theorem config_means_iff (ht : Ready t (calls.foldl Call.config 0xffff)) (pin : Fin 16) :
    ((t.bus.word .cfg).getLsbD pin = true ↔
        ∀ mode, lastMode calls pin = some mode → mode.isInput = true) ↔
      ∀ mode, lastMode calls pin = some mode → mode.isInput = false := by
  rw [config_bit ht, isEmpty_modes_iff]
  cases lastMode calls pin with
  | none => exact iff_of_true ⟨nofun, fun _ => rfl⟩ nofun
  | some mode =>
      constructor
      · intro hmeans mode' hlast
        cases hlast
        by_contra hinput
        cases hmeans.mpr fun mode' hlast => by
          cases hlast
          simpa using hinput
      · intro h
        refine iff_of_false nofun ?_
        intro hall
        have hinput := hall mode rfl
        rw [h mode rfl] at hinput
        cases hinput

/-- The polarity bit is never set. -/
theorem polarity_means_iff {cfg : BitVec 16} (ht : Ready t cfg) (pin : Fin 16) :
    ((t.bus.word .inversion).getLsbD pin = true ↔
        ∃ mode, lastInput calls pin = some mode ∧ mode.isInverted = true) ↔
      ∀ mode, lastInput calls pin = some mode → mode.isInverted = false := by
  rw [polarity_bit ht, iff_false_left Bool.false_ne_true]
  constructor
  · intro hnone mode hlast
    rw [← Bool.not_eq_true]
    intro hinverted
    exact hnone ⟨mode, hlast, hinverted⟩
  · rintro h ⟨mode, hlast, hinverted⟩
    rw [h mode hlast] at hinverted
    cases hinverted

/-- What the registers have to say, with every bit of a pin that has a mode
clear. -/
theorem meansModes_iff_of_ready (ht : Ready t (calls.foldl Call.config 0xffff)) :
    MeansModes calls t.bus ↔ ∀ (pin : Fin 16) (mode : PinMode),
      (lastMode calls pin = some mode → mode.isInput = false) ∧
        (lastInput calls pin = some mode → mode.isInverted = false) := by
  constructor
  · intro hmeans pin mode
    constructor
    · exact (config_means_iff ht pin).mp (hmeans.config pin) mode
    · exact (polarity_means_iff ht pin).mp (hmeans.polarity pin) mode
  · intro h
    constructor
    · intro pin
      exact (config_means_iff ht pin).mpr fun mode => (h pin mode).1
    · intro pin
      exact (polarity_means_iff ht pin).mpr fun mode => (h pin mode).2

end Means

/-- The registers after any run of calls mean what the modes said if and only
if no pin's last mode is an input and no pin's last input mode is inverted. -/
theorem meansModes_iff (regs : Register → Byte) (calls : List Call) :
    (∃ s outs t, construct.run (allocated ⟨regs, []⟩) = .ok () s ∧
        Steps Call.exec s calls outs t ∧ MeansModes calls t.bus) ↔
      ∀ (pin : Fin 16) (mode : PinMode),
        (lastMode calls pin = some mode → mode.isInput = false) ∧
          (lastInput calls pin = some mode → mode.isInverted = false) := by
  obtain ⟨s, hconstruct, hs⟩ := construct_quiet regs
  obtain ⟨outs, t, hsteps, ht⟩ := steps_quiet calls hs
  rw [← meansModes_iff_of_ready ht]
  constructor
  · rintro ⟨s', outs', t', hconstruct', hsteps', hmeans⟩
    rw [hconstruct] at hconstruct'
    cases hconstruct'
    obtain ⟨_, rfl⟩ := hsteps.det hsteps'
    exact hmeans
  · intro hmeans
    exact ⟨s, outs, t, hconstruct, hsteps, hmeans⟩

/-- A button's pin, configured as an input, becomes an output. -/
theorem not_meansModes_input :
    ∃ s outs t, construct.run (allocated ⟨fun _ => 0, []⟩) = .ok () s ∧
      Steps Call.exec s [.configurePin 0 PinMode.input] outs t ∧
      ¬ MeansModes [.configurePin 0 PinMode.input] t.bus := by
  refine ⟨_, _, _, rfl, .cons rfl (.nil _), ?_⟩
  intro h
  have hbit := (h.config 0).mpr fun mode hlast => by
    cases hlast
    decide
  revert hbit
  decide

end Gpio
