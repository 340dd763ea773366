/-
# `Cbor.Util` — the helpers on top of libcbor

`Utils/Cbor.h`, which pinballd and the common library both have.
`Util::CborMapGet` is a linear search for the first pair with the key, and
reads every key it passes as a definite text string.  `Util::CborReadUint`
reads an unsigned integer of any width.
-/
import ProgrammableLoad.Cbor.Item

namespace Cbor.Util

open Cpp

/-- The value of the first of the pairs with this key. -/
def findKey (inKey : String) : List (Item × Item) → Except Fault (Option Item)
  | [] => .ok none
  | (key, value) :: rest => do
      if (← key.stringHandle) = ascii inKey then
        .ok (some value)
      else
        findKey inKey rest

/-- `CborMapGet` -/
def cborMapGet (map : Item) (inKey : String) : Except Fault (Option Item) := do
  findKey inKey (← map.mapHandle)

/-- `CborReadUint` -/
def cborReadUint (item : Item) : Except Fault Nat :=
  if item.isaUint then
    item.getUint
  else
    .error (.thrown (.runtimeError "invalid type (expected uint)"))

end Cbor.Util
