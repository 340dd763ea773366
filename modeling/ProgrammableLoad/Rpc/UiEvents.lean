/-
# `Rpc.UiEvents` — the input events of the GUI

The GUI's client of pinballd takes the broadcasts of the touch and button
drivers apart and queues an event for the screen for what the user interface
has a use for: the first touch, and the menu and select buttons.  A packet
with an empty payload has no item, and the handler of input events looks into
it all the same.

The screen and its queue are part of a library; what is modelled of it is that
the events come out in the order they went in.
-/
import ProgrammableLoad.Cbor.Util
import ProgrammableLoad.Rpc.ClientBase

namespace Rpc

open Cpp Cbor Cbor.Util Program

/-- `shittygui::event::Button::Type`, as far as it is used. -/
inductive BtnType where
  | menu | select
deriving DecidableEq

/-- What is queued for the screen. -/
inductive GuiEvent where
  | touch (x y : BitVec 16) (isDown : Bool)
  | button (type : BtnType) (isDown : Bool)
deriving DecidableEq

/-- The client.  `gui` says whether the renderer is alive, and `queue` is what
its screen was sent. -/
structure PinballClient where
  base : ClientBase
  gui : Bool
  queue : List GuiEvent
  lastTouchPos : BitVec 16 × BitVec 16

namespace PinballClient

/-- `gui->getScreen()->queueEvent(…)`, if the GUI has not gone away. -/
def queueEvent (event : GuiEvent) : EStateM Fault PinballClient Unit :=
  modify fun c => if c.gui then { c with queue := c.queue ++ [event] } else c

/-! ## Touches -/

def emitTouchEvent (x y : BitVec 16) (isDown : Bool) : EStateM Fault PinballClient Unit :=
  queueEvent (.touch x y isDown)

def emitTouchUp : EStateM Fault PinballClient Unit := do
  let (x, y) := (← get).lastTouchPos
  emitTouchEvent x y false

def emitTouchDown (x y : BitVec 16) : EStateM Fault PinballClient Unit := do
  modify fun c => { c with lastTouchPos := (x, y) }
  emitTouchEvent x y true

/-- The position in the map of a touch; its components have sixteen bits. -/
def touchPosition (touch : Item) : Except Fault (BitVec 16 × BitVec 16) := do
  match ← cborMapGet touch "position" with
  | none => throw (.thrown (.runtimeError "invalid touch position (expected array)"))
  | some posArray =>
      if posArray.isaArray then
        let posX ← cborReadUint (← posArray.arrayGet 0)
        let posY ← cborReadUint (← posArray.arrayGet 1)
        return (BitVec.ofNat 16 posX, BitVec.ofNat 16 posY)
      else
        throw (.thrown (.runtimeError "invalid touch position (expected array)"))

/-- One turn of the loop over the touches; all but the first are ignored. -/
def processTouch (touchPair : Item × Item) : EStateM Fault PinballClient Unit := do
  if touchPair.1.isaUint = false then
    throw (.thrown (.runtimeError "invalid touch key"))
  else if touchPair.2.isaMap = false ∧ touchPair.2.isaFloatCtrl = false then
    throw (.thrown (.runtimeError "invalid touch value (expected map or null)"))
  else do
    let touchId ← MonadExcept.ofExcept (cborReadUint touchPair.1)
    if touchId ≠ 0 then
      pure ()
    else if touchPair.2.isNull then
      emitTouchUp
    else do
      let (posX, posY) ← MonadExcept.ofExcept (touchPosition touchPair.2)
      emitTouchDown posX posY

def processUiTouchEvent (root : Item) : EStateM Fault PinballClient Unit := do
  match ← MonadExcept.ofExcept (cborMapGet root "touchData") with
  | none => throw (.thrown (.runtimeError "invalid touch event (missing touchData payload)"))
  | some touchData => forM (← MonadExcept.ofExcept touchData.mapHandle) processTouch

/-! ## Buttons -/

/-- A text as it is put into the message of an exception. -/
def quoted (text : List Byte) : String := String.ofList (text.map fun b => Char.ofNat b.toNat)

def emitButtonEventGui (name : List Byte) (state : Bool) : EStateM Fault PinballClient Unit := do
  if (← get).gui then
    if name = ascii "menu" then
      queueEvent (.button .menu state)
    else if name = ascii "select" then
      queueEvent (.button .select state)
    else
      throw (.thrown (.invalidArgument s!"invalid gui button '{quoted name}'"))
  else
    pure ()

/-- One turn of the loop over the buttons. -/
def processButton (buttonPair : Item × Item) : EStateM Fault PinballClient Unit := do
  if buttonPair.1.isaString = false then
    throw (.thrown (.runtimeError "invalid button key"))
  else if buttonPair.2.isaFloatCtrl = false ∨ buttonPair.2.isBool = false then
    throw (.thrown (.runtimeError "invalid button value (expected boolean)"))
  else do
    let buttonName ← MonadExcept.ofExcept buttonPair.1.stringHandle
    let state ← MonadExcept.ofExcept buttonPair.2.getBool
    if buttonName = ascii "menu" ∨ buttonName = ascii "select" then
      emitButtonEventGui buttonName state
    else
      pure ()

def processUiButtonEvent (root : Item) : EStateM Fault PinballClient Unit := do
  match ← MonadExcept.ofExcept (cborMapGet root "buttonData") with
  | none => throw (.thrown (.runtimeError "invalid button event (missing buttonData payload)"))
  | some buttonData => forM (← MonadExcept.ofExcept buttonData.mapHandle) processButton

/-! ## Messages -/

/-- Events of an encoder, and those of an unknown type, are only logged. -/
def processUiEvent (item : Item) : EStateM Fault PinballClient Unit := do
  if item.isaMap = false then
    throw (.thrown (.invalidArgument "invalid payload: expected map"))
  else do
    match ← MonadExcept.ofExcept (cborMapGet item "type") with
    | none => throw (.thrown (.runtimeError "missing or invalid event type key"))
    | some typeKey =>
        if typeKey.isaString = false then
          throw (.thrown (.runtimeError "missing or invalid event type key"))
        else do
          let value ← MonadExcept.ofExcept typeKey.stringHandle
          if value = ascii "touch" then
            processUiTouchEvent item
          else if value = ascii "button" then
            processUiButtonEvent item
          else
            pure ()

def handleIncomingMessage (header : Header) (message : Option Item) :
    EStateM Fault PinballClient Unit :=
  if header.endpoint = kRpcEndpointUiEvent then
    match message with
    | none => throw (.undefined "cbor_isa_map")
    | some item => processUiEvent item
  else
    pure ()

/-- What works on the base class alone. -/
def onBase {α : Type} (m : EStateM Fault ClientBase α) : EStateM Fault PinballClient α := fun c =>
  match m.run c.base with
  | .ok a base => .ok a { c with base := base }
  | .error e base => .error e { c with base := base }

/-- `ClientBase::bevRead` with some bytes pending, which libevent lets it drain
or does not. -/
def bevRead (cbor : Libcbor) (pending : List Byte) (drains : Bool) :
    EStateM Fault PinballClient Unit := do
  match ← onBase (ClientBase.bevRead cbor pending drains) with
  | none => pure ()
  | some (header, message) => handleIncomingMessage header message

end PinballClient

end Rpc
