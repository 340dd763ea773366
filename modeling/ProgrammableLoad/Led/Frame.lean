/-
# `Led.Frame` — what a request changes

Drivers come with an LED map that `readLedMap` accepted, and go when they are
destroyed.  Whatever happened before, a request changes at most the PWM
registers of the channels that the first live driver with the indicator has
for it, and if it returns it has set them.
-/
import ProgrammableLoad.Led.LedMap
import ProgrammableLoad.Led.Registers
import ProgrammableLoad.Theory.Runs

namespace Led

open Cpp Cbor Program

/-- `Register::IREF0`, the first register after the PWM registers. -/
def IREF0 : Register := 0x18

/-- An LED map that was accepted. -/
structure LedConfig where
  ledMap : Item
  channels : LedMap
  accepted : Pca9955.readLedMap ledMap = .ok channels

/-- What happens to the manager.  `regs` is what the constructor of the driver
left in its chip. -/
inductive Event where
  | register (config : LedConfig) (regs : Register → Byte)
  | destroy (this : Nat)
  | set (which : Indicator) (setting : Setting)

namespace LedManager

def registerDriver (driver : Pca9955) : EStateM Fault LedManager Unit :=
  modify fun s => { s with drivers := s.drivers ++ [some driver] }

/-- The manager keeps the place of a driver that is gone. -/
def destroyDriver (this : Nat) : EStateM Fault LedManager Unit :=
  modify fun s => { s with drivers := s.drivers.set this none }

def handle : Event → EStateM Fault LedManager Unit
  | .register config regs => registerDriver ⟨config.channels, regs⟩
  | .destroy this => destroyDriver this
  | .set which setting => set which setting

def step (x : Event) : EStateM Fault LedManager (Except Exception Unit) := catching (handle x)

/-- A request changes only the registers of the channels that the first live
driver with the indicator has for it, which are PWM registers, and if it
returns each of them holds its duty cycle. -/
structure Framed (s : LedManager) (which : Indicator) (setting : Setting)
    (answer : Except Exception Unit) (t : LedManager) : Prop where
  reg_eq : ∀ this r, (∀ k, ¬ s.Drives which k this r) → t.reg this r = s.reg this r
  duty : answer = .ok () → ∀ k this r, s.Drives which k this r →
    t.reg this r = some (setting.duty s.rounding k)
  isPwm : ∀ k this r, s.Drives which k this r → PWM0 ≤ r ∧ r < IREF0
  handler_eq : ∀ which', t.handler which' = s.handler which'

section Requests

variable {s : LedManager} {which : Indicator} {setting : Setting}

theorem pwm_in_block {channel : Nat} (h : channel < kNumChannels) :
    PWM0 ≤ pwm channel ∧ pwm channel < IREF0 := by
  have hall : ∀ channel : Fin 16, PWM0 ≤ pwm channel ∧ pwm channel < IREF0 := by decide
  exact hall ⟨channel, h⟩

theorem Drives.isPwm {k this : Nat} {r : Register} (h : s.Drives which k this r) :
    PWM0 ≤ r ∧ r < IREF0 := by
  obtain ⟨l, channel, hh, hk, rfl⟩ := h
  exact pwm_in_block (lt_of_indices (indices_of_handler hh) channel (List.mem_of_getElem? hk))

variable (which setting) in
/-- On a bus that always answers a request either paints its registers or is
refused before it has written any. -/
theorem set_run_of_answers (hbus : s.bus = []) :
    (s.Takes which setting ∧
        (LedManager.set which setting).run s = .ok () (s.painted which setting)) ∨
      ∃ e, (LedManager.set which setting).run s = .error (.thrown e) s := by
  by_cases htakes : s.Takes which setting
  · refine .inl ⟨htakes, set_run_eq_ok_iff.mpr ⟨htakes, ?_, rfl⟩⟩
    rw [hbus]
    exact answers_nil _
  · refine .inr ?_
    simp only [Takes, not_forall] at htakes
    obtain ⟨this, l, hh, hnone⟩ := htakes
    refine ⟨.runtimeError s!"invalid channel info (has {l.length} indices)", ?_⟩
    rw [set_run, hh]
    simp only
    rw [Option.not_isSome_iff_eq_none.mp hnone]
    rfl

theorem framed_painted (h : s.Takes which setting) (answer : Except Exception Unit) :
    s.Framed which setting answer (s.painted which setting) where
  reg_eq := fun _ _ hnot => reg_painted_of_not_drives hnot
  duty := fun _ _ _ _ hdrives => reg_painted_of_drives hdrives h
  isPwm := fun _ _ _ hdrives => hdrives.isPwm
  handler_eq := fun _ => handler_painted _ _

theorem framed_thrown (e : Exception) : s.Framed which setting (.error e) s where
  reg_eq := fun _ _ _ => rfl
  duty := nofun
  isPwm := fun _ _ _ hdrives => hdrives.isPwm
  handler_eq := fun _ => rfl

end Requests

/-- What a step does to a manager on a bus that always answers. -/
theorem framed_step {s : LedManager} (hbus : s.bus = []) (x : Event) :
    ∃ answer t, (step x).run s = .ok answer t ∧ t.bus = [] ∧ t.rounding = s.rounding ∧
      ∀ which setting, x = .set which setting → s.Framed which setting answer t := by
  cases x with
  | register config regs =>
      refine ⟨_, _, catching_run_ok rfl, hbus, rfl, ?_⟩
      intro which setting hx
      cases hx
  | destroy this =>
      refine ⟨_, _, catching_run_ok rfl, hbus, rfl, ?_⟩
      intro which setting hx
      cases hx
  | set which setting =>
      rcases set_run_of_answers which setting hbus with ⟨htakes, hrun⟩ | ⟨e, hrun⟩
      · refine ⟨_, _, catching_run_ok hrun, ?_, rounding_painted _, ?_⟩
        · rw [bus_painted htakes, hbus, List.drop_nil]
        · intro which' setting' hx
          cases hx
          exact framed_painted htakes _
      · refine ⟨_, _, catching_run_thrown hrun, hbus, rfl, ?_⟩
        intro which' setting' hx
        cases hx
        exact framed_thrown e

theorem framed_run {s : LedManager} (hbus : s.bus = []) (xs : List Event) :
    Along step (fun u x answer t => u.rounding = s.rounding ∧
      ∀ which setting, x = .set which setting → u.Framed which setting answer t) s xs := by
  induction xs generalizing s with
  | nil => trivial
  | cons x xs ih =>
      obtain ⟨answer, t, hx, hbus', hrounding, hframed⟩ := framed_step hbus x
      refine ⟨answer, t, hx, ⟨rfl, hframed⟩, ?_⟩
      rw [← hrounding]
      exact ih hbus'

/-- Whatever drivers were registered and destroyed before, and whatever was
set, every request of a run is framed.  This is for every arithmetic, which is
the same all along, and so for the exact one. -/
theorem requests_framed (rounding : Rounding) (xs : List Event) :
    Along step (fun s x answer t => s.rounding = rounding ∧
      ∀ which setting, x = .set which setting → s.Framed which setting answer t)
      ⟨[], [], rounding⟩ xs :=
  framed_run (s := ⟨[], [], rounding⟩) rfl xs

/-- A map that gives the status indicator two channels and the trigger
indicator one. -/
def twoIndicators : Item :=
  .map true [(.uint .int8 6, .array true [.uint .int8 3, .uint .int8 5]),
    (.uint .int8 7, .uint .int8 0)]

/-- The status indicator is set before and after its driver is destroyed. -/
theorem requests_framed_twoIndicators :
    ∃ config : LedConfig, config.channels.indices .status = some [3, 5] ∧
      config.channels.indices .trigger = some [0] ∧
      Along step (fun s x answer t => s.rounding = .exact ∧
        ∀ which setting, x = .set which setting → s.Framed which setting answer t)
        ⟨[], [], .exact⟩
        [.register config fun _ => 0, .set .status (.color (.num 1, .num (1 / 2), .num 0)),
          .set .trigger (.brightness (.num (1 / 3))), .destroy 0,
          .set .status (.brightness (.num 1))] :=
  ⟨⟨twoIndicators, _, rfl⟩, rfl, rfl, requests_framed .exact _⟩

end LedManager

end Led
