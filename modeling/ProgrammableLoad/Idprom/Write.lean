/-
# `Idprom.Write` — writing to the IDPROM page by page

The EEPROM is written in transactions of at most one 32-byte page.
`writeIdpromPage` issues one such transaction, after checking that it does not
leave its page; `writeIdprom` cuts a byte string into them: the part in the
first page, the full pages, the rest.

The device takes the bytes of a transaction into consecutive cells of the page
it starts in, and would start over at the beginning of the page after its last
cell.  Bus transfers succeed.  Besides the memory, the state records the chunks
of the transactions.
-/
import ProgrammableLoad.Cpp.Fault
import ProgrammableLoad.Theory.Splice

namespace Idprom

open Cpp Program

def kPageSize : Nat := 32

/-- The device, and the chunks written to it: address and bytes. -/
structure Eeprom where
  memory : Nat → Byte
  chunks : List (Nat × List Byte)

/-! ## The device -/

/-- The bytes of a transaction, from `offset` of the page at `page` on. -/
def storeInPage (memory : Nat → Byte) (page offset : Nat) : List Byte → (Nat → Byte)
  | [] => memory
  | b :: bs =>
      storeInPage (Function.update memory (page + offset % kPageSize) b) page (offset + 1) bs

/-- The write transaction: two bytes of address, then the data. -/
def pageWrite (address : Nat) (data : List Byte) : EStateM Fault Eeprom Unit :=
  modify fun s =>
    { memory := storeInPage s.memory (address / kPageSize * kPageSize)
        (address % kPageSize) data
      chunks := s.chunks ++ [(address, data)] }

/-! ## The driver -/

def writeIdpromPage (base : Nat) (data : List Byte) : EStateM Fault Eeprom Unit :=
  if data.length > kPageSize then
    throw (.thrown (.invalidArgument "data must not be larger than a page"))
  else if base % kPageSize + data.length > kPageSize then
    throw (.thrown (.invalidArgument
      s!"page write would wrap ({data.length} bytes at ${hex 4 base})"))
  else
    pageWrite base data

/-- `base + bytesWritten`, as the `uint16_t` parameter of `writeIdpromPage` -/
def chunkAddress (base bytesWritten : Nat) : Nat := (base + bytesWritten) % 2 ^ 16

/-- The loop over the full pages; the answer is `bytesWritten` after it. -/
def writeFullPages (base : Nat) (data : List Byte) :
    Nat → Nat → EStateM Fault Eeprom Nat
  | 0, bytesWritten => pure bytesWritten
  | pages + 1, bytesWritten => do
      let chunk ← subspan data bytesWritten kPageSize
      writeIdpromPage (chunkAddress base bytesWritten) chunk
      writeFullPages base data pages (bytesWritten + kPageSize)

/-- The number of full pages to write once `bytesWritten` bytes are counted. -/
def totalNumPages (size bytesWritten : Nat) : Nat := sizeSub size bytesWritten / kPageSize

/-- A partial page at the start; the answer is the count of bytes written. -/
def writeFirstPage (base : Nat) (data : List Byte) : EStateM Fault Eeprom Nat :=
  if base % kPageSize ≠ 0 then do
    let chunk ← subspan data 0 (kPageSize - base % kPageSize)
    writeIdpromPage base chunk
    pure (base % kPageSize)
  else
    pure 0

/-- The full pages and the partial page at the end, once `first` bytes are
counted as written. -/
def writeRemaining (base : Nat) (data : List Byte) (first : Nat) :
    EStateM Fault Eeprom Unit := do
  let pages := totalNumPages data.length first
  let bytesWritten ← writeFullPages base data pages first
  if pages < data.length then
    let chunk ← subspan data bytesWritten (data.length - bytesWritten)
    writeIdpromPage (chunkAddress base bytesWritten) chunk

def writeIdprom (base : BitVec 16) (data : List Byte) : EStateM Fault Eeprom Unit := do
  let first ← writeFirstPage base.toNat data
  writeRemaining base.toNat data first

end Idprom
