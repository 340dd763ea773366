/-
# `Rpc.LoaddClient` — the measurements of the GUI

The GUI's client of loadd takes the periodic measurements apart and hands them
to the callbacks that were registered.  As with the client of pinballd, a
packet with an empty payload has no item, and the handler looks into it all
the same.

A callback is somebody else's function; what is modelled of it is that it was
called, and with what.
-/
import ProgrammableLoad.Cbor.Util
import ProgrammableLoad.Rpc.ClientBase

namespace Rpc

open Cpp Cbor Cbor.Util Program

def kRpcEndpointMeasurement : Byte := 0x10

/-- A data point from a measurement message. -/
structure Measurement where
  voltage : Double
  current : Double
  temperature : Double

/-- The client.  `measurementCallbacks` are the tokens in the order a loop
visits them, and `invoked` the calls that were made. -/
structure LoaddClient where
  base : ClientBase
  measurementCallbacks : List Nat
  invoked : List (Nat × Measurement)

namespace LoaddClient

/-- One quantity of a measurement, which is zero if it is missing. -/
def readQuantity (item : Item) (key what : String) : Except Fault Double := do
  match ← cborMapGet item key with
  | none => return .num 0
  | some value =>
      if value.isaFloatCtrl = false then
        throw (.thrown (.runtimeError s!"invalid {what} value (expected float)"))
      else
        value.floatGetFloat

def readMeasurement (item : Item) : Except Fault Measurement := do
  let voltage ← readQuantity item "v" "voltage"
  let current ← readQuantity item "i" "current"
  let temperature ← readQuantity item "t" "temperature"
  return ⟨voltage, current, temperature⟩

def processMeasurement (item : Item) : EStateM Fault LoaddClient Unit := do
  if item.isaMap = false then
    throw (.thrown (.invalidArgument "invalid payload: expected map"))
  else do
    let meas ← MonadExcept.ofExcept (readMeasurement item)
    modify fun c => { c with
      invoked := c.invoked ++ c.measurementCallbacks.map fun token => (token, meas) }

/-- Messages to other endpoints are only logged. -/
def handleIncomingMessage (header : Header) (message : Option Item) :
    EStateM Fault LoaddClient Unit :=
  if header.endpoint = kRpcEndpointMeasurement then
    match message with
    | none => throw (.undefined "cbor_isa_map")
    | some item => processMeasurement item
  else
    pure ()

/-- What works on the base class alone. -/
def onBase {α : Type} (m : EStateM Fault ClientBase α) : EStateM Fault LoaddClient α := fun c =>
  match m.run c.base with
  | .ok a base => .ok a { c with base := base }
  | .error e base => .error e { c with base := base }

/-- `ClientBase::bevRead` with some bytes pending, which libevent lets it drain
or does not. -/
def bevRead (cbor : Libcbor) (pending : List Byte) (drains : Bool) :
    EStateM Fault LoaddClient Unit := do
  match ← onBase (ClientBase.bevRead cbor pending drains) with
  | none => pure ()
  | some (header, message) => handleIncomingMessage header message

end LoaddClient

end Rpc
