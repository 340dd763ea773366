/-
# `Touch.Ft6336` — the polling side of the touch controller driver

`updateTouchState` is the callback of the polling timer.  It reads the number
of active points and, unless that is zero, the registers of the points; it
decodes them into the members `touchPositions`, `touchIds`, `p1HasData` and
`p2HasData`, and broadcasts what these members say.

The constructor does not initialise `touchIds`, so an entry of it is an
`Option`: `none` until the first store.  A read of such an entry, and a store
outside the two-element array, are undefined behaviour.  Register reads
succeed; the result of the callback is the payload of the broadcast, `none`
when it sends nothing.
-/
import ProgrammableLoad.Cbor.Item

namespace Touch

open Cpp Cbor

abbrev TouchPosition := BitVec 16 × BitVec 16

/-- The register file of the controller, as it stands at one poll. -/
abbrev Registers := Nat → Byte

/-- The members `readConfig` sets: the size of the panel and its rotation in
quarter turns. -/
structure Panel where
  size : BitVec 16 × BitVec 16
  rotation : BitVec 2

/-- The members of the driver the callback works with. -/
structure Ft6336 where
  panel : Panel
  touchPositions : Fin 2 → TouchPosition
  touchIds : Fin 2 → Option (BitVec 8)
  p1HasData : Bool
  p2HasData : Bool

namespace Ft6336

/-- The driver as its constructor leaves it. -/
def construct (panel : Panel) : Ft6336 where
  panel := panel
  touchPositions := fun _ => (0, 0)
  touchIds := fun _ => none
  p1HasData := false
  p2HasData := false

/-- `Register::TouchStatus` -/
def touchStatus : Nat := 0x02

/-- `Register::Point1XHigh` -/
def point1XHigh : Nat := 0x03

/-- `readRegisters`: fill the first `numRegs` elements of the buffer, or all
of it for `numRegs = 0`. -/
def readRegisters (regs : Registers) (start : Nat) {n : Nat}
    (outBuffer : Fin n → Byte) (numRegs : Nat) : Fin n → Byte :=
  fun i => if numRegs = 0 ∨ i.val < numRegs then regs (start + i.val) else outBuffer i

def transformTouchPosition (p : Panel) (pos : TouchPosition) : TouchPosition :=
  match p.rotation with
  | 0 => pos
  | 1 => (pos.2, pos.1)
  | 2 => (pos.1, p.size.2 - pos.2)
  | 3 => (p.size.2 - pos.2, pos.1)

/-- The position a point's registers hold, before any rotation. -/
def rawPosition (regData : Fin 6 → Byte) : TouchPosition :=
  (((regData 0 &&& 0xf).setWidth 16 <<< 8) ||| (regData 1).setWidth 16,
   ((regData 2 &&& 0xf).setWidth 16 <<< 8) ||| (regData 3).setWidth 16)

/-- The position a point is stored with. -/
def decodePosition (p : Panel) (regData : Fin 6 → Byte) : TouchPosition :=
  let pos := rawPosition regData
  if p.rotation ≠ 0 then transformTouchPosition p pos else pos

/-- The touch id a point's registers hold. -/
def touchId (regData : Fin 6 → Byte) : Nat := ((regData 2 &&& 0xf0) >>> 4).toNat

def decodeTouchPoint (point : Nat) (regData : Fin 6 → Byte) :
    EStateM Fault Ft6336 Unit :=
  if h : point > 1 then
    throw (.thrown (.invalidArgument "invalid point value"))
  else do
    let pos := decodePosition (← get).panel regData
    -- the id is a nibble of the device and subscripts a two-element array
    if hid : touchId regData < 2 then
      modify fun d => { d with
        touchIds := Function.update d.touchIds ⟨touchId regData, hid⟩
          (some (BitVec.ofNat 8 point)) }
    else
      throw (.undefined "touchIds[touchId]")
    modify fun d => { d with
      touchPositions := Function.update d.touchPositions ⟨point, by omega⟩ pos }
    if point = 0 then
      modify fun d => { d with p1HasData := true }
    else
      modify fun d => { d with p2HasData := true }

def clearTouchPoint (point : Nat) : EStateM Fault Ft6336 Unit :=
  if point > 1 then
    throw (.thrown (.invalidArgument "invalid point value"))
  else do
    match (← get).touchIds 0 with
    | none => throw (.undefined "touchIds[0] read before it is written")
    | some id =>
        let idx : Fin 2 := if id.toNat = point then 0 else 1
        if idx = 0 then
          modify fun d => { d with p1HasData := false }
        else
          modify fun d => { d with p2HasData := false }
        modify fun d => { d with
          touchIds := Function.update d.touchIds idx (some 0xff) }

/-! ## The broadcast -/

/-- `encodeTouchState` -/
def encodeTouchState (pos : TouchPosition) : Item :=
  .map true [(.ofString "position",
    .array true [.uint .int16 pos.1.toNat, .uint .int16 pos.2.toNat])]

/-- The value under one key of `touchData`. -/
def touchValue : Option TouchPosition → Item
  | some pos => encodeTouchState pos
  | none => .ctrlNull

/-- The payload of the broadcast, for the values under the keys 0 and 1. -/
def touchMessage (touch0 touch1 : Option TouchPosition) : Item :=
  .map true [
    (.ofString "type", .ofString "touch"),
    (.ofString "touchData", .map true [
      (.uint .int8 0, touchValue touch0),
      (.uint .int8 1, touchValue touch1)])]

/-- What `sendTouchStateUpdate` finds for the touch `k`: `hasData` is the flag
it tests, `p1HasData` for touch 0 and `p2HasData` for touch 1. -/
def currentTouch (hasData : Bool) (k : Fin 2) :
    EStateM Fault Ft6336 (Option TouchPosition) := do
  let d ← get
  if hasData then
    match d.touchIds k with
    | none => throw (.undefined "touchIds read before it is written")
    | some id =>
        if id = 0xff then
          pure none
        -- `touchPositions.at(touchIds[k])`
        else if h : id.toNat < 2 then
          pure (some (d.touchPositions ⟨id.toNat, h⟩))
        else
          throw (.thrown (.outOfRange "array::at"))
  else
    pure none

def sendTouchStateUpdate : EStateM Fault Ft6336 Item := do
  let d ← get
  let touch0 ← currentTouch d.p1HasData 0
  let touch1 ← currentTouch d.p2HasData 1
  pure (touchMessage touch0 touch1)

/-! ## The callback -/

/-- `if(hasData) { changed = true; clearTouchPoint(point); }` -/
def clearIfSet (hasData : Ft6336 → Bool) (point : Nat) :
    EStateM Fault Ft6336 Bool := do
  let d ← get
  if hasData d then
    clearTouchPoint point
    pure true
  else
    pure false

/-- The number of active points in the status register. -/
def numPoints (regs : Registers) : Nat := (regs touchStatus &&& 0x0f).toNat

/-- The twelve bytes the callback decodes from, `n` points having been read. -/
def pointBuffer (regs : Registers) (n : Nat) : Fin 12 → Byte :=
  readRegisters regs point1XHigh (fun _ => 0) (if n = 2 then 12 else 6)

/-- `regData.subspan<6 * point, 6>()` -/
def pointData (buffer : Fin 12 → Byte) (point : Fin 2) : Fin 6 → Byte :=
  fun i => buffer ⟨6 * point.val + i.val, by omega⟩

def updateTouchState (regs : Registers) : EStateM Fault Ft6336 (Option Item) :=
  let n := numPoints regs
  if n = 0 then do
    let changed1 ← clearIfSet (·.p1HasData) 0
    let changed2 ← clearIfSet (·.p2HasData) 1
    if changed1 || changed2 then
      return some (← sendTouchStateUpdate)
    else
      return none
  else if n > 2 then
    throw (.thrown (.runtimeError s!"invalid number of touch points: {n}"))
  else do
    let buffer := pointBuffer regs n
    decodeTouchPoint 0 (pointData buffer 0)
    if n = 2 then
      decodeTouchPoint 1 (pointData buffer 1)
    else
      let _ ← clearIfSet (·.p2HasData) 1
    return some (← sendTouchStateUpdate)

end Ft6336

end Touch
