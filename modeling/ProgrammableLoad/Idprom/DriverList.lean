/-
# `Idprom.DriverList` — the constructors of the supported drivers

Three drivers can be named in the payload.  Two of them work with an IO
expander that they share, `gFrontIoExpander`: the display's constructor
creates it if there is none yet, and the LED controller's takes it for granted.

The chip of the expander has the registers of `Gpio.Pca9535`.  Of the other
transfers, to the touch and the LED controller and to the display, only
whether they fail is of interest here; there is memory for timers.
-/
import ProgrammableLoad.Buttons.Direct
import ProgrammableLoad.Gpio.PinConfig
import ProgrammableLoad.Idprom.Payload
import ProgrammableLoad.Led.Config
import ProgrammableLoad.Touch.Config

namespace Idprom

open Cpp Cbor Cbor.Util Program

/-! ## The front panel -/

/-- A driver that has been registered. -/
inductive Driver where
  | ft6336 (config : Touch.Config)
  | direct (driver : Buttons.Direct)
  | pca9955 (config : Led.Pca9955.Config)

/-- The IO expander's chip while it has no driver, its driver, for each other
transfer to come whether it fails, and the drivers in the order they were
registered in. -/
structure FrontPanel where
  chip : Gpio.Bus
  gFrontIoExpander : Option Gpio.Pca9535
  outcomes : List (Option Exception)
  drivers : List Driver

/-- A transfer that is not the expander's. -/
def transfer : EStateM Fault FrontPanel Unit := do
  let s ← get
  match s.outcomes with
  | some e :: rest =>
      set { s with outcomes := rest }
      throw (.thrown e)
  | outcomes => set { s with outcomes := outcomes.tail }

/-- `gFrontIoExpander = std::make_shared<Pca9535>(…, 0x20)` -/
def createExpander : EStateM Fault FrontPanel Unit := fun s =>
  match Gpio.construct.run (Gpio.allocated s.chip) with
  | .ok _ expander => .ok () { s with gFrontIoExpander := some expander }
  | .error e expander => .error e { s with chip := expander.bus }

/-- A call through the shared pointer. -/
def onExpander (m : EStateM Fault Gpio.Pca9535 Unit) : EStateM Fault FrontPanel Unit := fun s =>
  match s.gFrontIoExpander with
  | none => .error (.undefined "std::shared_ptr::operator->") s
  | some expander =>
      match m.run expander with
      | .ok _ expander => .ok () { s with gFrontIoExpander := some expander }
      | .error e expander => .error e { s with gFrontIoExpander := some expander }

def registerDriver (driver : Driver) : EStateM Fault FrontPanel Unit :=
  modify fun s => { s with drivers := s.drivers ++ [driver] }

/-! ## The constructors -/

/-- The touch controller: two registers are read, and interrupts are refused. -/
def constructFt6336 (config : Item) : EStateM Fault FrontPanel Unit := do
  if !config.isaMap then
    throw (.thrown (.runtimeError "invalid config (expected map)"))
  else
    let c ← MonadExcept.ofExcept (Touch.readConfig config)
    transfer
    transfer
    if c.irqEnabled then
      throw (.thrown (.runtimeError "irq support not yet implemented"))
    else
      registerDriver (.ft6336 c)

/-- The display's reset line on the expander. -/
def resetLine : Nat := 8

/-- `Nt35510::toggleReset` -/
def toggleReset : EStateM Fault FrontPanel Unit := do
  onExpander (Gpio.setPinState resetLine true)
  onExpander (Gpio.setPinState resetLine false)
  onExpander (Gpio.setPinState resetLine true)

/-- `Direct::initGpio` -/
def initGpio (driver : Buttons.Direct) : EStateM Fault FrontPanel Unit :=
  forM (List.range 32) fun i =>
    if driver.buttonBits.getLsbD i then
      onExpander (Gpio.configurePin i Gpio.PinMode.input)
    else
      pure ()

/-- `Nt35510::Nt35510` -/
def openDisplay : EStateM Fault FrontPanel Unit := do
  transfer
  onExpander (Gpio.configurePin resetLine Gpio.PinMode.output)
  toggleReset
  transfer

/-- The display: it is opened, reset and initialised, and gone again.  What
stays is the driver of the buttons. -/
def constructNt35510 : EStateM Fault FrontPanel Unit := do
  if (← get).gFrontIoExpander.isNone then
    createExpander
  openDisplay
  initGpio Buttons.Direct.initial
  registerDriver (.direct Buttons.Direct.initial)

/-- The registers the LED controller is set up with. -/
def ledSetup : List Led.Register := [0x00, 0x01, 0x3f, 0x06, 0x18, 0x44, 0x02]

/-- The LED controller: its outputs are enabled first. -/
def constructPca9955 (config : Item) : EStateM Fault FrontPanel Unit := do
  onExpander (Gpio.configurePin 7 Gpio.PinMode.output)
  onExpander (Gpio.setPinState 7 false)
  if !config.isaMap then
    throw (.thrown (.runtimeError "invalid config (expected map)"))
  else
    let c ← MonadExcept.ofExcept (Led.Pca9955.readConfig config)
    forM ledSetup fun _ => transfer
    registerDriver (.pca9955 c)

def construct : DriverInfo → Item → EStateM Fault FrontPanel Unit
  | .ft6336, config => constructFt6336 config
  | .nt35510, _ => constructNt35510
  | .pca9955, config => constructPca9955 config

/-- The prober in front of this panel. -/
def panelEnv (text : List Byte → Except Fault (List Byte)) (device : Device) : Env FrontPanel :=
  ⟨text, device, construct⟩

/-! ## Transfers that succeed -/

/-- No transfer to come fails. -/
structure FrontPanel.Quiet (s : FrontPanel) : Prop where
  outcomes : s.outcomes = []
  chip : s.chip.outcomes = []
  expander : ∀ e, s.gFrontIoExpander = some e → e.bus.outcomes = []

def FrontPanel.Created (s : FrontPanel) : Prop := s.gFrontIoExpander.isSome = true

/-- With the expander there and no failure to come, the function returns and
leaves all that, and the drivers, as it was. -/
def Quietly (m : EStateM Fault FrontPanel Unit) : Prop :=
  ∀ s, s.Quiet → s.Created →
    ∃ t, m.run s = .ok () t ∧ t.Quiet ∧ t.Created ∧ t.drivers = s.drivers

section Quietly

variable {s : FrontPanel} {m m' : EStateM Fault FrontPanel Unit}

theorem quietly_pure : Quietly (pure ()) := fun s hs hc => ⟨s, rfl, hs, hc, rfl⟩

theorem Quietly.bind (hm : Quietly m) (hm' : Quietly m') : Quietly (do m; m') := by
  intro s hs hc
  obtain ⟨u, hu, hquiet, hcreated, hdrivers⟩ := hm s hs hc
  obtain ⟨t, ht, htquiet, htcreated, htdrivers⟩ := hm' u hquiet hcreated
  exact ⟨t, (run_bind_of_ok hu).trans ht, htquiet, htcreated, htdrivers.trans hdrivers⟩

theorem Quietly.forM {α : Type} {f : α → EStateM Fault FrontPanel Unit} {l : List α}
    (h : ∀ a ∈ l, Quietly (f a)) : Quietly (forM l f) := by
  induction l with
  | nil => exact quietly_pure
  | cons a l ih =>
      obtain ⟨ha, hl⟩ := List.forall_mem_cons.mp h
      rw [List.forM_cons]
      exact ha.bind (ih hl)

theorem transfer_run (h : s.Quiet) : transfer.run s = .ok () s := by
  obtain ⟨chip, expander, outcomes, drivers⟩ := s
  obtain rfl : outcomes = [] := h.outcomes
  rfl

theorem quietly_transfer : Quietly transfer := fun s hs hc => ⟨s, transfer_run hs, hs, hc, rfl⟩

/-- A call to the expander that returns if no write fails. -/
theorem quietly_onExpander {f : EStateM Fault Gpio.Pca9535 Unit}
    (h : ∀ e : Gpio.Pca9535, e.bus.outcomes = [] →
      ∃ e', f.run e = .ok () e' ∧ e'.bus.outcomes = []) : Quietly (onExpander f) := by
  rintro ⟨chip, expander, outcomes, drivers⟩ hs hc
  obtain ⟨e, rfl⟩ := Option.isSome_iff_exists.mp hc
  obtain ⟨e', hrun, hquiet⟩ := h e (hs.expander e rfl)
  refine ⟨⟨chip, some e', outcomes, drivers⟩, ?_, ⟨hs.outcomes, hs.chip, ?_⟩, rfl, rfl⟩
  · simp only [EStateM.run] at hrun
    simp only [onExpander, EStateM.run, hrun]
  · rintro _ ⟨⟩
    exact hquiet

theorem quietly_configurePin (pin : Nat) (mode : Gpio.PinMode) :
    Quietly (onExpander (Gpio.configurePin pin mode)) := by
  refine quietly_onExpander fun e he => ?_
  rw [Gpio.configurePin_run]
  exact ⟨_, Gpio.updatePinConfig_quiet he, rfl⟩

theorem quietly_setPinState (pin : Nat) (asserted : Bool) :
    Quietly (onExpander (Gpio.setPinState pin asserted)) := by
  refine quietly_onExpander fun e he => ?_
  rw [Gpio.setPinState_run]
  exact ⟨_, Gpio.push_run_quiet .output he, rfl⟩

theorem quietly_initGpio (driver : Buttons.Direct) : Quietly (initGpio driver) := by
  refine Quietly.forM fun i _ => ?_
  split
  · exact quietly_configurePin i _
  · exact quietly_pure

theorem quietly_openDisplay : Quietly openDisplay := by
  have hreset : Quietly toggleReset := (quietly_setPinState _ true).bind
    ((quietly_setPinState _ false).bind (quietly_setPinState _ true))
  exact quietly_transfer.bind ((quietly_configurePin _ _).bind (hreset.bind quietly_transfer))

theorem createExpander_run (h : s.Quiet) : ∃ e : Gpio.Pca9535,
    createExpander.run s = .ok () { s with gFrontIoExpander := some e } ∧ e.bus.outcomes = [] := by
  obtain ⟨⟨regs, outcomes⟩, expander, others, drivers⟩ := s
  obtain rfl : outcomes = [] := h.chip
  obtain ⟨e, hrun, hready⟩ := Gpio.construct_quiet regs
  refine ⟨e, ?_, hready.quiet⟩
  simp only [EStateM.run] at hrun
  simp only [createExpander, EStateM.run, hrun]

end Quietly

end Idprom
