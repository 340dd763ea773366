/-
# `Led.Pca9955` — the LED controller

A controller has sixteen channels, each with a PWM register, and its driver a
map from the indicators of the front panel to channels, which the constructor
has read with `readLedMap`.  All controllers are on one I²C bus, so the state
a driver works on is the whole list of drivers and, for each register write to
come, whether it fails.  A driver is named by its position in the list.
-/
import ProgrammableLoad.Cpp.Double

namespace Led

open Cpp Program

/-! ## Indicators and channels -/

/-- `LedManager::Indicator` -/
inductive Indicator where
  | status | trigger | overheat | overcurrent | error
  | btnModeCc | btnModeCv | btnModeCw | btnModeExt | btnLoadOn | btnMenu
deriving DecidableEq, Repr

/-- `LedManager::Color`: red, green and blue. -/
abbrev Color := Double × Double × Double

def kNumChannels : Nat := 16

/-- The member `channels`, as `readLedMap` builds it: channels of the chip, at
most three to an indicator, and none allocated twice.  An indicator that was
given an empty array is in the map and has no channel. -/
structure LedMap where
  indices : Indicator → Option (List Nat)
  index_lt : ∀ {which l}, indices which = some l → ∀ i ∈ l, i < kNumChannels
  length_le : ∀ {which l}, indices which = some l → l.length ≤ 3
  nodup : ∀ {which l}, indices which = some l → l.Nodup
  disjoint : ∀ {which which' l l'}, which ≠ which' →
    indices which = some l → indices which' = some l' → l.Disjoint l'

abbrev Register := Byte

/-- `Register::PWM0` -/
def PWM0 : Register := 0x08

/-- The register `writeRegister` addresses for the duty cycle of a channel. -/
def pwm (channel : Nat) : Register := (PWM0 + BitVec.ofNat 8 channel) &&& 0x7f

/-- The two ways for a register write to fail. -/
inductive BusError where
  | selectDevice | writeRegister

def BusError.what : BusError → String
  | .selectDevice => "select device"
  | .writeRegister => "write register"

/-- A driver with the registers of its chip. -/
structure Pca9955 where
  channels : LedMap
  regs : Register → Byte

/-- The driver with another value in a register of its chip. -/
def Pca9955.setReg (d : Pca9955) (reg : Register) (data : Byte) : Pca9955 :=
  { d with regs := Function.update d.regs reg data }

/-- The registered drivers in order, `none` for one that was destroyed, and
for each register write to come whether it fails; the writes after the last
listed one succeed.  The processor rounds products in its own way, always the
same. -/
structure LedManager where
  drivers : List (Option Pca9955)
  bus : List (Option BusError)
  rounding : Rounding

namespace LedManager

/-- `ptr.lock()` gives a driver. -/
def alive (s : LedManager) (this : Nat) : Bool := (s.drivers[this]?.join).isSome

/-- The channels a live driver has for an indicator. -/
def indices (s : LedManager) (this : Nat) (which : Indicator) : Option (List Nat) :=
  s.drivers[this]?.join.bind fun d => d.channels.indices which

/-- A register of a live driver's chip. -/
def reg (s : LedManager) (this : Nat) (r : Register) : Option Byte :=
  s.drivers[this]?.join.map fun d => d.regs r

/-- A register write that reached a driver's chip. -/
def poke (s : LedManager) (this : Nat) (reg : Register) (data : Byte) : LedManager :=
  { s with
    drivers := s.drivers.modify this (Option.map fun d => d.setReg reg data)
    bus := s.bus.tail }

end LedManager

/-! ## The driver's functions -/

namespace Pca9955

/-- `writeRegister`, for one byte. -/
def writeRegister (this : Nat) (start : Register) (data : Byte) :
    EStateM Fault LedManager Unit := do
  let s ← get
  match s.bus with
  | some err :: rest =>
      set { s with bus := rest }
      throw (.thrown (.systemError err.what))
  | _ => set (s.poke this (start &&& 0x7f) data)

def setBrightness (this : Nat) (channel : Nat) (brightness : Double) :
    EStateM Fault LedManager Unit := do
  if channel ≥ kNumChannels then
    throw (.thrown (.invalidArgument "invalid channel number"))
  else
    writeRegister this (PWM0 + BitVec.ofNat 8 channel) (brightness.duty (← get).rounding)

/-- Whether the driver has the indicator; if so, all its channels are set. -/
def setIndicatorBrightness (this : Nat) (which : Indicator) (brightness : Double) :
    EStateM Fault LedManager Bool := do
  match (← get).indices this which with
  | none => return false
  | some indices =>
      forM indices fun channel => setBrightness this channel brightness
      return true

/-- Whether the driver has the indicator; if so, each of its channels is set to
its component, the last one first. -/
def setIndicatorColor (this : Nat) (which : Indicator) (color : Color) :
    EStateM Fault LedManager Bool := do
  let (cR, cG, cB) := color
  match (← get).indices this which with
  | none => return false
  | some [i0, i1, i2] =>
      setBrightness this i2 cB
      setBrightness this i1 cG
      setBrightness this i0 cR
      return true
  | some [i0, i1] =>
      setBrightness this i1 cG
      setBrightness this i0 cR
      return true
  | some [i0] =>
      setBrightness this i0 cR
      return true
  | some indices =>
      throw (.thrown (.runtimeError
        s!"invalid channel info (has {indices.length} indices)"))

end Pca9955

end Led
