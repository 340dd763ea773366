/-
# `Idprom.Probulator` — the payload of the IDPROM

The payload is a CBOR map that says what front panel is attached.
`Probulator::parseIdpromPayload` goes through the map twice: the first loop
takes down the revision, the description and the serial number of the
hardware, the second one instantiates the required drivers.  The serial number
is a text, or an array that points to it: a device on the bus, the address of
its first byte, and how many there are.

Three things come from elsewhere and are parameters.  `Env.text` is what
`std::string` makes of the handle of a definite text, which libcbor does not
terminate; `Env.device` is what the devices on the bus answer to a read, and
`Env.construct` what a driver's constructor does to the rest of the daemon.
-/
import ProgrammableLoad.Cbor.Util
import ProgrammableLoad.Idprom.Base32

namespace Idprom

open Cpp Cbor Cbor.Util Program

/-! ## Keys -/

inductive IdpromKey where
  | hwRevision | hardwareDescription | manufacturer
  | serialString | serialPointer | requiredDrivers
deriving DecidableEq, Repr

/-- A multi-character constant, the first character in the highest byte. -/
def multichar (s : String) : Nat := (ascii s).foldl (fun n c => n * 2 ^ 8 + c.toNat) 0

def IdpromKey.value : IdpromKey → Nat
  | .hwRevision => multichar "HRev"
  | .hardwareDescription => multichar "hwin"
  | .manufacturer => multichar "manu"
  | .serialString => multichar "snum"
  | .serialPointer => multichar "Snpt"
  | .requiredDrivers => multichar "Driv"

/-- The case of the `switch` a number belongs to. -/
def IdpromKey.ofValue? (key : Nat) : Option IdpromKey :=
  [IdpromKey.hwRevision, .hardwareDescription, .manufacturer, .serialString, .serialPointer,
    .requiredDrivers].find? fun k => k.value = key

/-! ## Drivers -/

/-- The entries of `gSupportedDrivers`. -/
inductive DriverInfo where
  | ft6336 | nt35510 | pca9955
deriving DecidableEq, Repr

def DriverInfo.id : DriverInfo → List Byte
  | .ft6336 => [0xd5, 0xa6, 0xc9, 0xdf, 0x23, 0xe8, 0x4c, 0x9f, 0xab, 0xa7, 0x4d, 0x22, 0xf4, 0x3e,
      0x51, 0xb1]
  | .nt35510 => [0x08, 0x81, 0xbd, 0xad, 0x2f, 0xd4, 0x45, 0xb0, 0x84, 0x36, 0x36, 0xdb, 0x75, 0x36,
      0xa1, 0x9e]
  | .pca9955 => [0xbb, 0x47, 0x0f, 0xb9, 0x19, 0x76, 0x4a, 0xc8, 0x9f, 0x5b, 0x33, 0x66, 0xbd, 0xf8,
      0x06, 0x0e]

def gSupportedDrivers : List DriverInfo := [.ft6336, .nt35510, .pca9955]

/-- `uuids::to_string` -/
def uuidToString (id : List Byte) : String :=
  let group (first count : Nat) : String :=
    String.join (((id.drop first).take count).map fun b => hex 2 b.toNat)
  "-".intercalate [group 0 4, group 4 2, group 6 2, group 8 2, group 10 6]

/-! ## What the prober works with -/

/-- The answers to reads: device address, start address and length give the
bytes, as many as were asked for, or the transfer fails. -/
abbrev Device := Byte → BitVec 16 → (n : Nat) → Option { bytes : List Byte // bytes.length = n }

structure Env (ω : Type) where
  text : List Byte → Except Fault (List Byte)
  device : Device
  construct : DriverInfo → Item → EStateM Fault ω Unit

/-- The members that are read from the payload, and the rest of the daemon. -/
structure Probulator (ω : Type) where
  hwRevision : Option (List Byte)
  hwDesc : Option (List Byte)
  hwSerial : Option (List Byte)
  world : ω

/-- Before the payload is read. -/
def Probulator.initial {ω : Type} (world : ω) : Probulator ω := ⟨none, none, none, world⟩

/-! ## The serial number pointer -/

structure SerialPointer where
  deviceAddress : BitVec 8
  readAddress : BitVec 16
  readNumBytes : BitVec 16

/-- An element of the pointer; `cbor_array_get` gives one for every index in
the array, so the test for a null pointer in front of this one has no effect. -/
def pointerElement (array : Item) (i : Nat) (what : String) : Except Fault Nat := do
  let temp ← array.arrayGet i
  if !temp.isaUint then
    throw (.thrown (.runtimeError s!"invalid sn ptr {what} (expected uint)"))
  else
    cborReadUint temp

/-- The pointer, each element converted to the type of its variable. -/
def decodeSerialPointer (array : Item) : Except Fault SerialPointer := do
  if ← array.arrayIsIndefinite then
    throw (.thrown (.runtimeError "indefinite arrays not supported"))
  else
    let items ← array.arrayItems
    if items.length < 3 then
      throw (.thrown (.runtimeError s!"invalid serial number ptr (have {items.length} items)"))
    else
      let deviceAddress ← pointerElement array 0 "device address"
      let readAddress ← pointerElement array 1 "read address"
      let readNumBytes ← pointerElement array 2 "read length"
      return ⟨.ofNat 8 deviceAddress, .ofNat 16 readAddress, .ofNat 16 readNumBytes⟩

def readIdprom (device : Device) (ptr : SerialPointer) : Except Fault (List Byte) :=
  match device ptr.deviceAddress ptr.readAddress ptr.readNumBytes.toNat with
  | some bytes => .ok bytes.val
  | none => .error (.thrown (.systemError "read IDPROM"))

/-- The serial number the pointer leads to, as the member `hwSerial` gets it. -/
def parseAndReadSerialNumberPointer (device : Device) (array : Item) :
    Except Fault (List Byte) := do
  let ptr ← decodeSerialPointer array
  let snBytes ← readIdprom device ptr
  let snChars := List.replicate snBytes.length 0
  match Base32.encode snBytes snChars with
  | none => throw (.thrown (.runtimeError "Base32::Encode failed"))
  | some (totalBytes, snChars) => return snChars.take totalBytes

/-! ## The first loop -/

/-- `std::string(const char *)`, of the bytes of a text and no byte behind
them. -/
def cString (data : List Byte) : Except Fault (List Byte) :=
  if 0 ∈ data then
    .ok (data.takeWhile fun c => c ≠ 0)
  else
    .error (.undefined "std::string::string")

section Parse

variable {ω : Type} (env : Env ω)

/-- The text that a definite string comes to. -/
def Env.definiteString (error : String) (value : Item) : Except Fault (List Byte) := do
  let definite ← if value.isaString then value.stringIsDefinite else pure false
  if !definite then
    throw (.thrown (.runtimeError error))
  else
    env.text (← value.stringHandle)

/-- The `switch` over the keys. -/
def readValue (key : Option IdpromKey) (value : Item) : EStateM Fault (Probulator ω) Unit := do
  match key with
  | some .manufacturer => return ()
  | some .hwRevision =>
      let str ← MonadExcept.ofExcept (env.definiteString
        "invalid hw revision value (expected definite string)" value)
      modify fun s => { s with hwRevision := some str }
  | some .hardwareDescription =>
      let str ← MonadExcept.ofExcept (env.definiteString
        "invalid hw desc value (expected definite string)" value)
      modify fun s => { s with hwDesc := some str }
  | some .serialPointer =>
      if !value.isaArray then
        throw (.thrown (.runtimeError "invalid serial number ptr (expected array)"))
      else if (← get).hwSerial.isSome then
        throw (.thrown (.logicError "encountered serial ptr, but already read serial!"))
      else
        let serial ← MonadExcept.ofExcept (parseAndReadSerialNumberPointer env.device value)
        modify fun s => { s with hwSerial := some serial }
  | some .serialString =>
      let str ← MonadExcept.ofExcept (env.definiteString
        "invalid serial string (expected definite string)" value)
      modify fun s => { s with hwSerial := some str }
  | some .requiredDrivers => return ()
  | none => return ()

/-- One turn of the loop over the general information. -/
def readEntry (pair : Item × Item) : EStateM Fault (Probulator ω) Unit := do
  if !pair.1.isaUint then
    throw (.thrown (.runtimeError
      s!"invalid CBOR key (expected uint, got {pair.1.typeOf})"))
  else
    let key ← MonadExcept.ofExcept pair.1.getUint32
    readValue env (IdpromKey.ofValue? key) pair.2

/-! ## The second loop -/

/-- A function that works on the rest of the daemon. -/
def onWorld {α : Type} (m : EStateM Fault ω α) : EStateM Fault (Probulator ω) α := fun s =>
  match m.run s.world with
  | .ok a world => .ok a { s with world := world }
  | .error e world => .error e { s with world := world }

/-- The entry of a driver in `gSupportedDrivers`, by the key it has in the list
of required drivers. -/
def findDriver (key : Item) : Except Fault DriverInfo := do
  let definite ← if key.isaBytestring then key.bytestringIsDefinite else pure false
  if !definite then
    throw (.thrown (.runtimeError "invalid driver key (expected bytestring)"))
  else
    let id ← key.bytestringHandle
    if id.length ≠ 16 then
      throw (.thrown (.runtimeError s!"invalid driver uuid (got {id.length} bytes)"))
    else
      match gSupportedDrivers.find? fun info => id = info.id with
      | some info => return info
      | none => throw (.thrown (.runtimeError s!"unsupported driver (id {uuidToString id})"))

/-- One turn of the loop over the required drivers. -/
def instantiate (pair : Item × Item) : EStateM Fault ω Unit := do
  let info ← MonadExcept.ofExcept (findDriver pair.1)
  match ← catching (env.construct info pair.2) with
  | .ok () => return ()
  | .error _ => throw (.thrown (.runtimeError "driver initialization failed"))

/-- The value of the key `RequiredDrivers`. -/
def requireDrivers (value : Item) : EStateM Fault ω Unit := do
  if !value.isaMap then
    throw (.thrown (.runtimeError "invalid driver list (expected map)"))
  else
    let drivers ← MonadExcept.ofExcept value.mapHandle
    forM drivers (instantiate env)

/-- One turn of the loop that looks for the drivers. -/
def readDrivers (pair : Item × Item) : EStateM Fault ω Unit := do
  let key ← MonadExcept.ofExcept pair.1.getUint32
  if key ≠ IdpromKey.requiredDrivers.value then
    return ()
  else
    requireDrivers env pair.2

/-! ## The payload -/

/-- `parseIdpromPayload`, from the loaded item on. -/
def parseItem (item : Item) : EStateM Fault (Probulator ω) Unit := do
  if !item.isaMap then
    throw (.thrown (.runtimeError "invalid CBOR payload (expected map)"))
  else
    let pairs ← MonadExcept.ofExcept item.mapHandle
    forM pairs (readEntry env)
    onWorld (forM pairs (readDrivers env))

def parseIdpromPayload (cbor : Libcbor) (payload : List Byte) :
    EStateM Fault (Probulator ω) Unit :=
  match cbor.load payload with
  | .error result => throw (.thrown (.runtimeError
      s!"cbor_load failed: {result.code.toNat} (at ${hex 0 result.position})"))
  | .ok item => parseItem env item

end Parse

end Idprom
