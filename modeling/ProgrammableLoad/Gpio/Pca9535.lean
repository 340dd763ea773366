/-
# `Gpio.Pca9535` — the IO expander and its shadow registers

The chip has three 16-bit registers that are written, each as two 8-bit
halves: output levels, input polarity and pin configuration.  The driver keeps
for each the value it wants and, in `last`, the value it last wrote in full,
and `updatePartialRegister` writes only the halves in which the two differ.

The bus is the register file of the chip and the outcomes of the writes to
come: a write that fails throws and leaves the chip as it was.
-/
import ProgrammableLoad.Cpp.Fault

namespace Gpio

open Cpp Program

/-! ## Words and their halves -/

/-- `value & 0xFF` -/
def lower (v : BitVec 16) : Byte := (v &&& 0x00ff).setWidth 8

/-- `(value & 0xFF00) >> 8` -/
def upper (v : BitVec 16) : Byte := ((v &&& 0xff00) >>> 8).setWidth 8

theorem getLsbD_lower (v : BitVec 16) {i : Nat} (hi : i < 8) :
    (lower v).getLsbD i = v.getLsbD i := by
  have hmask : ∀ j : Fin 8, (0x00ff : BitVec 16).getLsbD j = true := by decide
  simp only [lower, BitVec.getLsbD_setWidth, BitVec.getLsbD_and, hi, decide_true,
    Bool.true_and]
  rw [hmask ⟨i, hi⟩, Bool.and_true]

theorem getLsbD_upper (v : BitVec 16) {i : Nat} (hi : i < 8) :
    (upper v).getLsbD i = v.getLsbD (8 + i) := by
  have hmask : ∀ j : Fin 8, (0xff00 : BitVec 16).getLsbD (8 + j) = true := by decide
  simp only [upper, BitVec.getLsbD_setWidth, BitVec.getLsbD_ushiftRight,
    BitVec.getLsbD_and, hi, decide_true, Bool.true_and]
  rw [hmask ⟨i, hi⟩, Bool.and_true]

/-- The test for a changed lower half compares lower halves. -/
theorem lower_eq_iff {v w : BitVec 16} : lower v = lower w ↔ v &&& 0x00ff = w &&& 0x00ff := by
  constructor
  · intro h
    apply BitVec.eq_of_getLsbD_eq
    intro i hi
    have hmask : ∀ j : Fin 16, (0x00ff : BitVec 16).getLsbD j = decide (j.val < 8) := by
      decide
    rw [BitVec.getLsbD_and, BitVec.getLsbD_and, hmask ⟨i, hi⟩]
    by_cases h8 : i < 8
    · rw [← getLsbD_lower v h8, ← getLsbD_lower w h8, h]
    · simp [h8]
  · intro h
    simp only [lower, h]

/-- The test for a changed upper half compares upper halves. -/
theorem upper_eq_iff {v w : BitVec 16} : upper v = upper w ↔ v &&& 0xff00 = w &&& 0xff00 := by
  constructor
  · intro h
    apply BitVec.eq_of_getLsbD_eq
    intro i hi
    have hmask : ∀ j : Fin 16, (0xff00 : BitVec 16).getLsbD j = decide (8 ≤ j.val) := by
      decide
    rw [BitVec.getLsbD_and, BitVec.getLsbD_and, hmask ⟨i, hi⟩]
    by_cases h8 : 8 ≤ i
    · obtain ⟨j, rfl⟩ := Nat.exists_eq_add_of_le h8
      rw [← getLsbD_upper v (by omega), ← getLsbD_upper w (by omega), h]
    · simp [h8]
  · intro h
    simp only [upper, h]

theorem append_halves (v : BitVec 16) : upper v ++ lower v = v := by
  apply BitVec.eq_of_getLsbD_eq
  intro i hi
  rw [BitVec.getLsbD_append]
  by_cases h8 : i < 8
  · rw [← getLsbD_lower v h8]
    simp [h8]
  · obtain ⟨j, rfl⟩ := Nat.exists_eq_add_of_le (Nat.le_of_not_lt h8)
    rw [← getLsbD_upper v (show j < 8 by omega)]
    simp

/-! ## The chip and the driver -/

/-- The registers of the chip, by offset. -/
abbrev Register := Nat

/-- The three ports the driver shadows. -/
inductive Port where
  | output | inversion | cfg
deriving DecidableEq

/-- The register of a port's lower half: `Output0`, `Polarity0`, `Config0`. -/
def Port.reg : Port → Register
  | .output => 0x02
  | .inversion => 0x04
  | .cfg => 0x06

/-- The two ways for a register write to fail. -/
inductive BusError where
  | setSlaveAddress | writeRegister

def BusError.what : BusError → String
  | .setSlaveAddress => "Pca9535: set slave address"
  | .writeRegister => "Pca9535: write register"

/-- The chip's registers, and for each write to come whether it fails; the
writes after the last listed one succeed. -/
structure Bus where
  regs : Register → Byte
  outcomes : List (Option BusError)

structure RegData where
  value : BitVec 16
  last : Option (BitVec 16)

structure Pca9535 where
  ports : Port → RegData
  bus : Bus

/-- The 16-bit register of a port, as the chip holds it. -/
def Bus.word (bus : Bus) (port : Port) : BitVec 16 :=
  bus.regs (port.reg + 1) ++ bus.regs port.reg

/-- `writeReg`, for an 8-bit value -/
def writeReg (reg : Register) (value : Byte) : EStateM Fault Pca9535 Unit := do
  let s ← get
  match s.bus.outcomes with
  | some err :: rest =>
      set { s with bus.outcomes := rest }
      throw (.thrown (.systemError err.what))
  | outcomes =>
      set { s with bus := ⟨Function.update s.bus.regs reg value, outcomes.tail⟩ }

/-- `writeReg`, for both halves of a 16-bit value -/
def writeReg16 (reg : Register) (value : BitVec 16) : EStateM Fault Pca9535 Unit := do
  writeReg reg (lower value)
  writeReg (reg + 1) (upper value)

def RegData.lowerDirty (regData : RegData) : Bool :=
  match regData.last with
  | none => true
  | some last => last &&& 0x00ff != regData.value &&& 0x00ff

def RegData.upperDirty (regData : RegData) : Bool :=
  match regData.last with
  | none => true
  | some last => last &&& 0xff00 != regData.value &&& 0xff00

def updatePartialRegister (port : Port) : EStateM Fault Pca9535 Unit := do
  let regData := (← get).ports port
  if regData.lowerDirty && regData.upperDirty then
    writeReg16 port.reg regData.value
  else if regData.lowerDirty then
    writeReg port.reg (lower regData.value)
  else if regData.upperDirty then
    writeReg (port.reg + 1) (upper regData.value)
  modify fun s => { s with
    ports := Function.update s.ports port ⟨regData.value, some regData.value⟩ }

def updatePinConfig : EStateM Fault Pca9535 Unit := do
  updatePartialRegister .inversion
  updatePartialRegister .cfg

def updateOutputPort : EStateM Fault Pca9535 Unit := updatePartialRegister .output

/-! ## The calls -/

/-- `GpioChip::PinMode`, a bit mask -/
abbrev PinMode := BitVec 32

namespace PinMode

def input : PinMode := 0x0
def output : PinMode := 0x1
def outputOpenDrain : PinMode := 0x2
def inverted : PinMode := 1 <<< 8

end PinMode

/-- `1U << pin`, as a `uint16_t` -/
def bit (pin : Nat) : BitVec 16 := ((1 : BitVec 32) <<< pin).setWidth 16

/-- The driver, wanting another value in a port. -/
def Pca9535.want (s : Pca9535) (port : Port) (value : BitVec 16) : Pca9535 :=
  { s with ports := Function.update s.ports port ⟨value, (s.ports port).last⟩ }

/-- Change the wanted value of a port: `port.value |= …`, `port.value &= …`. -/
def setValue (port : Port) (f : BitVec 16 → BitVec 16) : EStateM Fault Pca9535 Unit :=
  modify fun s => s.want port (f (s.ports port).value)

def configurePin (pin : Nat) (mode : PinMode) : EStateM Fault Pca9535 Unit := do
  if mode &&& PinMode.input ≠ 0 then
    setValue .cfg (· ||| bit pin)
    if mode &&& PinMode.inverted ≠ 0 then
      setValue .inversion (· ||| bit pin)
    else
      setValue .inversion (· &&& ~~~bit pin)
  else
    setValue .cfg (· &&& ~~~bit pin)
  updatePinConfig

def setPinState (pin : Nat) (asserted : Bool) : EStateM Fault Pca9535 Unit := do
  if asserted then
    setValue .output (· ||| bit pin)
  else
    setValue .output (· &&& ~~~bit pin)
  updateOutputPort

/-- The members of the driver before the body of its constructor. -/
def allocated (bus : Bus) : Pca9535 := ⟨fun _ => ⟨0, none⟩, bus⟩

/-- The body of the constructor: all pins are inputs. -/
def construct : EStateM Fault Pca9535 Unit := do
  setValue .cfg fun _ => 0xffff
  setValue .inversion fun _ => 0
  setValue .output fun _ => 0
  updatePinConfig

/-- The calls a user of the driver makes, on the pins there are. -/
inductive Call where
  | configurePin (pin : Fin 16) (mode : PinMode)
  | setPinState (pin : Fin 16) (asserted : Bool)

def Call.exec : Call → EStateM Fault Pca9535 Unit
  | .configurePin pin mode => Gpio.configurePin pin.val mode
  | .setPinState pin asserted => Gpio.setPinState pin.val asserted

/-- The ports a call pushes to the chip. -/
def Call.pushed : Call → List Port
  | .configurePin _ _ => [.inversion, .cfg]
  | .setPinState _ _ => [.output]

theorem getLsbD_bit (pin i : Fin 16) : (bit pin).getLsbD i = decide (i = pin) := by
  revert pin i
  decide

@[simp] theorem want_bus (s : Pca9535) (port : Port) (value : BitVec 16) :
    (s.want port value).bus = s.bus := rfl

@[simp] theorem want_ports_self (s : Pca9535) (port : Port) (value : BitVec 16) :
    (s.want port value).ports port = ⟨value, (s.ports port).last⟩ := by
  simp [Pca9535.want]

@[simp] theorem want_ports_ne (s : Pca9535) {port port' : Port} (value : BitVec 16)
    (h : port' ≠ port) : (s.want port value).ports port' = s.ports port' := by
  simp [Pca9535.want, h]

@[simp] theorem setValue_run (s : Pca9535) (port : Port) (f : BitVec 16 → BitVec 16) :
    (setValue port f).run s = .ok () (s.want port (f (s.ports port).value)) := rfl

/-- The value `setPinState` wants in the output port. -/
def outputValue (value : BitVec 16) (pin : Nat) (asserted : Bool) : BitVec 16 :=
  if asserted then value ||| bit pin else value &&& ~~~bit pin

theorem setPinState_run (s : Pca9535) (pin : Nat) (asserted : Bool) :
    (setPinState pin asserted).run s
      = updateOutputPort.run (s.want .output
          (outputValue (s.ports .output).value pin asserted)) := by
  cases asserted <;> rfl

/-- No mode has a bit in common with `PinMode::Input`, which is zero: a pin is
never configured as an input. -/
theorem configurePin_run (s : Pca9535) (pin : Nat) (mode : PinMode) :
    (configurePin pin mode).run s
      = updatePinConfig.run (s.want .cfg ((s.ports .cfg).value &&& ~~~bit pin)) := by
  have h : mode &&& PinMode.input = 0 := by simp [PinMode.input]
  simp [configurePin, h]

end Gpio
