/-
# `Idprom.Discovery` — finding the IDPROM on the bus

The constructor of `Probulator` reads a header at each of eight bus addresses
in turn and takes the first device that answers with the magic value; `probe`
reads the payload behind that header.  The fields of the header are stored in
network byte order and swapped by the processor, which is little-endian.

`probe_of_first` and `probe_of_none` say what comes of this on any bus.
`image_probed` closes the circle with `writeIdprom`: what was written as the
image of a payload is found at its address and parsed as that payload.
-/
import ProgrammableLoad.Idprom.Probulator
import ProgrammableLoad.Idprom.Splitting

namespace Idprom

open Cpp Cbor Program

/-! ## The header -/

structure IdpromHeader where
  magic : BitVec 32
  payloadLength : BitVec 16
  flags : Byte
  reserved : Byte
deriving DecidableEq

namespace IdpromHeader

def kMagicValue : BitVec 32 := .ofNat 32 (multichar "BlaZ")

/-- `sizeof(IdpromHeader)` -/
def sizeOf : Nat := 8

def ntohl (x : BitVec 32) : BitVec 32 :=
  x.extractLsb' 0 8 ++ x.extractLsb' 8 8 ++ x.extractLsb' 16 8 ++ x.extractLsb' 24 8

def ntohs (x : BitVec 16) : BitVec 16 := x.extractLsb' 0 8 ++ x.extractLsb' 8 8

def swapFromEeprom (h : IdpromHeader) : IdpromHeader :=
  { h with magic := ntohl h.magic, payloadLength := ntohs h.payloadLength }

/-- `htonl` and `htons` swap as `ntohl` and `ntohs` do. -/
def swapToEeprom (h : IdpromHeader) : IdpromHeader :=
  { h with magic := ntohl h.magic, payloadLength := ntohs h.payloadLength }

/-- The bytes of the header in memory. -/
def toMemory (h : IdpromHeader) : List Byte :=
  [h.magic.extractLsb' 0 8, h.magic.extractLsb' 8 8, h.magic.extractLsb' 16 8,
    h.magic.extractLsb' 24 8, h.payloadLength.extractLsb' 0 8, h.payloadLength.extractLsb' 8 8,
    h.flags, h.reserved]

/-- The header that these bytes in memory are. -/
def ofMemory (bytes : List Byte) : IdpromHeader where
  magic := bytes.getD 3 0 ++ bytes.getD 2 0 ++ bytes.getD 1 0 ++ bytes.getD 0 0
  payloadLength := bytes.getD 5 0 ++ bytes.getD 4 0
  flags := bytes.getD 6 0
  reserved := bytes.getD 7 0

end IdpromHeader

/-! ## The constructor -/

/-- The members that the constructor sets. -/
structure Located where
  idpromAddress : Byte
  idpromHeader : IdpromHeader

/-- `0b1010'000 + (i & 7)` -/
def idpromAddressAt (i : Nat) : Byte := .ofNat 8 (0b1010000 + (i &&& 7))

/-- The header of the device at an address, if it can be read. -/
def readHeader (device : Device) (address : Byte) : Except Fault IdpromHeader := do
  let bytes ← readIdprom device ⟨address, 0, .ofNat 16 IdpromHeader.sizeOf⟩
  return (IdpromHeader.ofMemory bytes).swapFromEeprom

/-- The loop over the addresses, with what is left of them. -/
def locate (device : Device) : List Nat → Located → Located
  | [], located => located
  | i :: rest, located =>
      match readHeader device (idpromAddressAt i) with
      | .error _ => locate device rest located
      | .ok header =>
          if header.magic ≠ IdpromHeader.kMagicValue then
            locate device rest located
          else
            ⟨idpromAddressAt i, header⟩

/-- The constructor; `before` is what the member of the header holds before it
is assigned. -/
def Located.construct (device : Device) (before : IdpromHeader) : Located :=
  locate device (List.range 8) ⟨0, before⟩

/-- `probe` -/
def probe {ω : Type} (env : Env ω) (cbor : Libcbor) (located : Located) :
    EStateM Fault (Probulator ω) Unit :=
  if located.idpromAddress = 0 then
    throw (.thrown (.runtimeError "couldn't locate IDPROM"))
  else do
    let payload ← MonadExcept.ofExcept (readIdprom env.device
      ⟨located.idpromAddress, .ofNat 16 IdpromHeader.sizeOf, located.idpromHeader.payloadLength⟩)
    parseIdpromPayload env cbor payload

/-! ## The first device with a header -/

/-- The device at the address with this index has a header. -/
def HasHeader (device : Device) (i : Nat) (header : IdpromHeader) : Prop :=
  readHeader device (idpromAddressAt i) = .ok header ∧ header.magic = IdpromHeader.kMagicValue

section Locate

variable {device : Device} {i : Nat} {header : IdpromHeader} {located : Located}

theorem locate_skip (h : ∀ header, ¬ HasHeader device i header) (rest : List Nat) :
    locate device (i :: rest) located = locate device rest located := by
  rw [locate]
  cases hread : readHeader device (idpromAddressAt i) with
  | error e => rfl
  | ok header =>
      have hmagic : header.magic ≠ IdpromHeader.kMagicValue := fun hmagic => h header ⟨hread, hmagic⟩
      simp only [if_pos hmagic]

theorem locate_take (h : HasHeader device i header) (rest : List Nat) :
    locate device (i :: rest) located = ⟨idpromAddressAt i, header⟩ := by
  rw [locate, h.1]
  simp only [h.2, ne_eq, not_true_eq_false, if_false]

theorem locate_append {front : List Nat} (h : ∀ j ∈ front, ∀ header, ¬ HasHeader device j header)
    (rest : List Nat) : locate device (front ++ rest) located = locate device rest located := by
  induction front with
  | nil => rfl
  | cons j front ih =>
      rw [List.cons_append, locate_skip (h j List.mem_cons_self),
        ih fun k hk => h k (List.mem_cons_of_mem j hk)]

/-- The first one that has a header is taken. -/
theorem construct_of_first (before : IdpromHeader) (hi : i < 8)
    (hfirst : ∀ j < i, ∀ header, ¬ HasHeader device j header) (h : HasHeader device i header) :
    Located.construct device before = ⟨idpromAddressAt i, header⟩ := by
  have hsplit : List.range 8 = List.range i ++ i :: (List.range 8).drop (i + 1) := by
    have htake : List.range i = (List.range 8).take i := by
      rw [List.take_range, Nat.min_eq_left (Nat.le_of_lt hi)]
    have hdrop : i :: (List.range 8).drop (i + 1) = (List.range 8).drop i := by
      have hlt : i < (List.range 8).length := by rwa [List.length_range]
      rw [← List.cons_getElem_drop_succ (h := hlt), List.getElem_range]
    rw [htake, hdrop, List.take_append_drop]
  rw [Located.construct, hsplit, locate_append fun j hj => hfirst j (List.mem_range.mp hj)]
  exact locate_take h _

theorem construct_of_none (before : IdpromHeader)
    (hnone : ∀ j < 8, ∀ header, ¬ HasHeader device j header) :
    Located.construct device before = ⟨0, before⟩ := by
  have h : locate device (List.range 8 ++ []) ⟨0, before⟩ = locate device [] ⟨0, before⟩ :=
    locate_append (fun j hj => hnone j (List.mem_range.mp hj)) []
  rw [List.append_nil] at h
  exact h

theorem idpromAddressAt_ne_zero : ∀ i < 8, idpromAddressAt i ≠ 0 := by decide

theorem idpromAddressAt_inj :
    ∀ i < 8, ∀ j < 8, idpromAddressAt i = idpromAddressAt j → i = j := by decide

/-- The payload behind the first header is what is parsed. -/
theorem probe_of_first {ω : Type} (env : Env ω) (cbor : Libcbor) (before : IdpromHeader)
    (hi : i < 8) (hfirst : ∀ j < i, ∀ header, ¬ HasHeader env.device j header)
    (h : HasHeader env.device i header) {payload : List Byte}
    (hread : readIdprom env.device ⟨idpromAddressAt i, .ofNat 16 IdpromHeader.sizeOf,
      header.payloadLength⟩ = .ok payload) :
    probe env cbor (.construct env.device before) = parseIdpromPayload env cbor payload := by
  rw [construct_of_first before hi hfirst h, probe, if_neg (idpromAddressAt_ne_zero i hi)]
  simp only [hread]
  rfl

/-- Without a header on the bus nothing is parsed. -/
theorem probe_of_none {ω : Type} (env : Env ω) (cbor : Libcbor) (before : IdpromHeader)
    (hnone : ∀ j < 8, ∀ header, ¬ HasHeader env.device j header) :
    probe env cbor (.construct env.device before)
      = throw (.thrown (.runtimeError "couldn't locate IDPROM")) := by
  rw [construct_of_none before hnone]
  rfl

end Locate

/-! ## The image of a payload -/

namespace IdpromHeader

theorem ntohl_ntohl (x : BitVec 32) : ntohl (ntohl x) = x := by
  apply BitVec.eq_of_getLsbD_eq
  intro i hi
  simp only [ntohl, BitVec.getLsbD_append, BitVec.getLsbD_extractLsb']
  grind

theorem ntohs_ntohs (x : BitVec 16) : ntohs (ntohs x) = x := by
  apply BitVec.eq_of_getLsbD_eq
  intro i hi
  simp only [ntohs, BitVec.getLsbD_append, BitVec.getLsbD_extractLsb']
  grind

theorem swapFromEeprom_swapToEeprom (h : IdpromHeader) : h.swapToEeprom.swapFromEeprom = h := by
  rw [swapToEeprom, swapFromEeprom, ntohl_ntohl, ntohs_ntohs]

theorem ofMemory_toMemory (h : IdpromHeader) : ofMemory h.toMemory = h := by
  have hmagic : h.magic.extractLsb' 24 8 ++ h.magic.extractLsb' 16 8 ++ h.magic.extractLsb' 8 8 ++
      h.magic.extractLsb' 0 8 = h.magic := by
    apply BitVec.eq_of_getLsbD_eq
    intro i hi
    simp only [BitVec.getLsbD_append, BitVec.getLsbD_extractLsb']
    grind
  have hlength : h.payloadLength.extractLsb' 8 8 ++ h.payloadLength.extractLsb' 0 8
      = h.payloadLength := by
    apply BitVec.eq_of_getLsbD_eq
    intro i hi
    simp only [BitVec.getLsbD_append, BitVec.getLsbD_extractLsb']
    grind
  cases h with
  | mk magic payloadLength flags reserved =>
      simp only [ofMemory, toMemory, List.getD_cons_zero, List.getD_cons_succ]
      rw [hmagic, hlength]

@[simp] theorem length_toMemory (h : IdpromHeader) : h.toMemory.length = sizeOf := rfl

end IdpromHeader

/-- The header of a payload. -/
def headerFor (flags reserved : Byte) (payload : List Byte) : IdpromHeader where
  magic := IdpromHeader.kMagicValue
  payloadLength := .ofNat 16 payload.length
  flags := flags
  reserved := reserved

/-- The contents of an IDPROM. -/
def image (flags reserved : Byte) (payload : List Byte) : List Byte :=
  (headerFor flags reserved payload).swapToEeprom.toMemory ++ payload

/-- The memories on the bus, by address. -/
abbrev Memories := Byte → Option (Nat → Byte)

/-- Cells are read from the start address on; behind the last of the 2^16
addresses comes the first. -/
def Memories.device (memories : Memories) : Device := fun address start n =>
  (memories address).map fun memory =>
    ⟨(List.range n).map fun i => memory ((start.toNat + i) % 2 ^ 16), by simp⟩

section Image

variable {memories : Memories} {i : Nat} {memory : Nat → Byte} {payload : List Byte}

theorem length_image (flags reserved : Byte) (payload : List Byte) :
    (image flags reserved payload).length = IdpromHeader.sizeOf + payload.length := by
  rw [image, List.length_append, IdpromHeader.length_toMemory]

/-- What was written is read back. -/
theorem map_splice (memory : Nat → Byte) {data : List Byte} {start n : Nat}
    (hend : start + n ≤ data.length) (hlength : data.length ≤ 2 ^ 16) :
    ((List.range n).map fun i => splice memory 0 data ((start + i) % 2 ^ 16))
      = (data.drop start).take n := by
  refine List.ext_getElem (by simp; omega) fun k hk _ => ?_
  have hkn : k < n := by simpa using hk
  have hcell : splice memory 0 data (start + k) = data[start + k] := by
    have h := splice_add memory 0 data (start + k)
    rw [Nat.zero_add, List.getElem?_eq_getElem (by omega), Option.getD_some] at h
    exact h
  rw [List.getElem_map, List.getElem_range, Nat.mod_eq_of_lt (by omega), hcell,
    List.getElem_take, List.getElem_drop]

/-- A read inside of what was written. -/
theorem readIdprom_written (start n : BitVec 16) {address : Byte} {data : List Byte}
    (hmemory : memories address = some (splice memory 0 data))
    (hend : start.toNat + n.toNat ≤ data.length) (hlength : data.length ≤ 2 ^ 16) :
    readIdprom memories.device ⟨address, start, n⟩
      = .ok ((data.drop start.toNat).take n.toNat) := by
  rw [← map_splice memory hend hlength]
  simp only [readIdprom, Memories.device, hmemory, Option.map_some]

theorem hasHeader_image (flags reserved : Byte)
    (hmemory : memories (idpromAddressAt i) = some (splice memory 0 (image flags reserved payload)))
    (hlength : IdpromHeader.sizeOf + payload.length ≤ 2 ^ 16) :
    HasHeader memories.device i (headerFor flags reserved payload) := by
  have hread := readIdprom_written 0 (.ofNat 16 IdpromHeader.sizeOf) hmemory
    (by rw [length_image]; exact Nat.le_add_right _ _) (by rwa [length_image])
  have htake : ((image flags reserved payload).drop 0).take IdpromHeader.sizeOf
      = (headerFor flags reserved payload).swapToEeprom.toMemory :=
    List.take_left' (IdpromHeader.length_toMemory _)
  refine ⟨?_, rfl⟩
  rw [readHeader, hread]
  show Except.ok (IdpromHeader.ofMemory (((image flags reserved payload).drop 0).take
    IdpromHeader.sizeOf)).swapFromEeprom = _
  rw [htake, IdpromHeader.ofMemory_toMemory, IdpromHeader.swapFromEeprom_swapToEeprom]

theorem readIdprom_payload (flags reserved : Byte)
    (hmemory : memories (idpromAddressAt i) = some (splice memory 0 (image flags reserved payload)))
    (hlength : IdpromHeader.sizeOf + payload.length ≤ 2 ^ 16) :
    readIdprom memories.device ⟨idpromAddressAt i, .ofNat 16 IdpromHeader.sizeOf,
      (headerFor flags reserved payload).payloadLength⟩ = .ok payload := by
  have hsize : (headerFor flags reserved payload).payloadLength.toNat = payload.length := by
    show (BitVec.ofNat 16 payload.length).toNat = _
    rw [BitVec.toNat_ofNat, Nat.mod_eq_of_lt (by simp [IdpromHeader.sizeOf] at hlength; omega)]
  have hread := readIdprom_written (.ofNat 16 IdpromHeader.sizeOf)
    (headerFor flags reserved payload).payloadLength hmemory
    (by rw [hsize, length_image]; exact Nat.le_refl _) (by rwa [length_image])
  have hdrop : (image flags reserved payload).drop IdpromHeader.sizeOf = payload :=
    List.drop_left' (IdpromHeader.length_toMemory _)
  rw [hread, hsize]
  show Except.ok (((image flags reserved payload).drop IdpromHeader.sizeOf).take payload.length) = _
  rw [hdrop, List.take_length]

/-- The device that answers at another address answers as before. -/
theorem hasHeader_update {j : Nat} {header : IdpromHeader} (new : Option (Nat → Byte)) (hi : i < 8)
    (hj : j < i) :
    HasHeader (Memories.device (Function.update memories (idpromAddressAt i) new)) j header
      ↔ HasHeader memories.device j header := by
  have hne : idpromAddressAt j ≠ idpromAddressAt i := fun h =>
    Nat.ne_of_lt hj (idpromAddressAt_inj j (by omega) i hi h)
  rw [HasHeader, HasHeader, readHeader, readHeader, readIdprom, readIdprom, Memories.device,
    Memories.device, Function.update_of_ne hne]

/-- The image of a payload is written without a fault to a memory with no header
below its address, whatever the memory held; the daemon that starts then finds
it and parses the payload. -/
theorem image_probed (memories : Memories) (memory : Nat → Byte) (flags reserved : Byte)
    (payload : List Byte) (before : IdpromHeader) (hi : i < 8)
    (hfirst : ∀ j < i, ∀ header, ¬ HasHeader memories.device j header)
    (hlength : IdpromHeader.sizeOf + payload.length ≤ 2 ^ 16) :
    ∃ t, (writeIdprom 0 (image flags reserved payload)).run ⟨memory, []⟩ = .ok () t ∧
      ∀ (ω : Type) (env : Env ω) (cbor : Libcbor), env.device
        = Memories.device (Function.update memories (idpromAddressAt i) (some t.memory)) →
        Located.construct env.device before
            = ⟨idpromAddressAt i, headerFor flags reserved payload⟩ ∧
          probe env cbor (.construct env.device before) = parseIdpromPayload env cbor payload := by
  have hsplits : Splits 0 (image flags reserved payload) :=
    splits_of_splittable (by rw [length_image]; simpa using hlength) (.inl rfl)
  obtain ⟨t, hrun, _, hmemory⟩ := hsplits.writes memory
  refine ⟨t, hrun, fun ω env cbor hdevice => ?_⟩
  have hself : Function.update memories (idpromAddressAt i) (some t.memory) (idpromAddressAt i)
      = some (splice memory 0 (image flags reserved payload)) := by
    rw [Function.update_self, hmemory]
    rfl
  have hheader := hasHeader_image flags reserved hself hlength
  have hread := readIdprom_payload flags reserved hself hlength
  rw [← hdevice] at hheader hread
  have hbelow : ∀ j < i, ∀ header, ¬ HasHeader env.device j header := by
    intro j hj header
    rw [hdevice, hasHeader_update _ hi hj]
    exact hfirst j hj header
  exact ⟨construct_of_first before hi hbelow hheader,
    probe_of_first env cbor before hi hbelow hheader hread⟩

/-- An erased memory at the second address, and nothing at the first. -/
theorem image_probed_second :
    ∃ t, (writeIdprom 0 (image 0 0 [0xa0])).run ⟨fun _ => 0xff, []⟩ = .ok () t ∧
      ∀ (ω : Type) (env : Env ω) (cbor : Libcbor), env.device
        = Memories.device (Function.update (fun _ => none) (idpromAddressAt 1) (some t.memory)) →
        Located.construct env.device ⟨0, 0, 0, 0⟩
            = ⟨idpromAddressAt 1, headerFor 0 0 [0xa0]⟩ ∧
          probe env cbor (.construct env.device ⟨0, 0, 0, 0⟩)
            = parseIdpromPayload env cbor [0xa0] :=
  image_probed (fun _ => none) (fun _ => 0xff) 0 0 [0xa0] ⟨0, 0, 0, 0⟩ (i := 1) (by decide)
    (fun _ _ _ h => by cases h.1) (by decide)

end Image

end Idprom
