/-
# `Idprom.SerialNumber` — the serial number behind a pointer

The bytes a device replies to a serial number pointer are to become the serial
number in base32.  `parseAndReadSerialNumberPointer` encodes them into a buffer
of as many characters as there are bytes, and the encoder stops where the
buffer ends: the serial number is the encoding cut off at the number of bytes.
It is complete only if there is not a single byte, `faithful_iff`.
-/
import ProgrammableLoad.Cbor.Lookup
import ProgrammableLoad.Idprom.Probulator

namespace Idprom

open Cpp Cbor Cbor.Util Program Base32

/-! ## The pointer -/

section Pointer

variable {definite : Bool} {items : List Item} {array x : Item} {i v : Nat} {what : String}

/-- An element that is there. -/
theorem pointerElement_eq (h : items[i]? = some x) :
    pointerElement (.array definite items) i what =
      if x.isaUint = true then cborReadUint x
      else .error (.thrown (.runtimeError s!"invalid sn ptr {what} (expected uint)")) := by
  have hget : (Item.array definite items).arrayGet i = .ok x := by
    simp only [Item.arrayGet, Item.arrayItems, bind, Except.bind, h]
  rw [pointerElement, hget]
  cases hx : x.isaUint <;> simp [hx, bind, Except.bind, throw, throwThe, MonadExceptOf.throw]

theorem pointerElement_eq_ok_iff (h : items[i]? = some x) :
    pointerElement (.array definite items) i what = .ok v ↔ ∃ width, x = .uint width v := by
  rw [pointerElement_eq h]
  cases x with
  | uint width value =>
      constructor
      · intro hread
        cases hread
        exact ⟨width, rfl⟩
      · rintro ⟨_, ⟨⟩⟩
        rfl
  | _ => simp [Item.isaUint]

theorem defined_pointerElement (h : items[i]? = some x) :
    Defined (pointerElement (.array definite items) i what) := by
  rw [pointerElement_eq h]
  by_cases hx : x.isaUint = true
  · rw [if_pos hx]
    exact defined_cborReadUint x
  · rw [if_neg hx]
    exact defined_thrown _

theorem decodeSerialPointer_cons (x y z : Item) (rest : List Item) :
    decodeSerialPointer (.array true (x :: y :: z :: rest)) = (do
      let deviceAddress ← pointerElement (.array true (x :: y :: z :: rest)) 0 "device address"
      let readAddress ← pointerElement (.array true (x :: y :: z :: rest)) 1 "read address"
      let readNumBytes ← pointerElement (.array true (x :: y :: z :: rest)) 2 "read length"
      return ⟨.ofNat 8 deviceAddress, .ofNat 16 readAddress, .ofNat 16 readNumBytes⟩) :=
  rfl

/-- A pointer is a definite array that starts with three numbers. -/
theorem decodeSerialPointer_eq_ok_iff {ptr : SerialPointer} :
    decodeSerialPointer array = .ok ptr ↔ ∃ w₁ w₂ w₃ device address count rest,
      array = .array true (.uint w₁ device :: .uint w₂ address :: .uint w₃ count :: rest) ∧
        ptr = ⟨.ofNat 8 device, .ofNat 16 address, .ofNat 16 count⟩ := by
  constructor
  · intro h
    obtain ⟨indefinite, hindefinite, h⟩ := except_bind_eq_ok.mp h
    cases array with
    | array definite items =>
        cases hindefinite
        cases definite with
        | false => cases h
        | true =>
            rcases items with _ | ⟨x, _ | ⟨y, _ | ⟨z, rest⟩⟩⟩
            case cons.cons.cons =>
                replace h := (decodeSerialPointer_cons x y z rest).symm.trans h
                obtain ⟨device, hdevice, h⟩ := except_bind_eq_ok.mp h
                obtain ⟨address, haddress, h⟩ := except_bind_eq_ok.mp h
                obtain ⟨count, hcount, h⟩ := except_bind_eq_ok.mp h
                cases h
                obtain ⟨w₁, rfl⟩ := (pointerElement_eq_ok_iff rfl).mp hdevice
                obtain ⟨w₂, rfl⟩ := (pointerElement_eq_ok_iff rfl).mp haddress
                obtain ⟨w₃, rfl⟩ := (pointerElement_eq_ok_iff rfl).mp hcount
                exact ⟨w₁, w₂, w₃, device, address, count, rest, rfl, rfl⟩
            all_goals cases h
    | _ => cases hindefinite
  · rintro ⟨w₁, w₂, w₃, device, address, count, rest, rfl, rfl⟩
    rfl

theorem defined_decodeSerialPointer (h : array.isaArray = true) :
    Defined (decodeSerialPointer array) := by
  cases array with
  | array definite items =>
      cases definite with
      | false => exact defined_thrown _
      | true =>
          rcases items with _ | ⟨x, _ | ⟨y, _ | ⟨z, rest⟩⟩⟩
          case cons.cons.cons =>
              rw [decodeSerialPointer_cons]
              refine defined_bind_iff.mpr ⟨defined_pointerElement rfl, fun device _ => ?_⟩
              refine defined_bind_iff.mpr ⟨defined_pointerElement rfl, fun address _ => ?_⟩
              exact defined_bind_iff.mpr ⟨defined_pointerElement rfl, fun count _ => defined_ok _⟩
          all_goals exact defined_thrown _
  | _ => cases h

theorem defined_decodeSerialPointer_iff :
    Defined (decodeSerialPointer array) ↔ array.isaArray = true := by
  refine ⟨fun h => ?_, defined_decodeSerialPointer⟩
  cases array with
  | array definite items => rfl
  | _ => exact absurd h (not_defined_undefined _)

/-- Following a pointer is defined on any array. -/
theorem defined_parseAndReadSerialNumberPointer (device : Device) (h : array.isaArray = true) :
    Defined (parseAndReadSerialNumberPointer device array) := by
  refine defined_bind_iff.mpr ⟨defined_decodeSerialPointer h, fun ptr _ => ?_⟩
  refine defined_bind_iff.mpr ⟨?_, fun snBytes _ => ?_⟩
  · rw [readIdprom]
    split
    · exact defined_ok _
    · exact defined_thrown _
  · simp only
    split
    · exact defined_thrown _
    · exact defined_ok _

end Pointer

/-! ## The serial number -/

/-- The array is a pointer, and the device answers the read with these bytes. -/
def Replies (device : Device) (array : Item) (s : List Byte) : Prop :=
  ∃ ptr, decodeSerialPointer array = .ok ptr ∧ readIdprom device ptr = .ok s

/-- The serial number is the encoding of the bytes replied: it can be decoded,
and no other bytes show the same one, wherever they come from. -/
structure Faithful (device : Device) (array : Item) (s : List Byte) : Prop where
  complete : parseAndReadSerialNumberPointer device array = .ok (base32 s)
  decodes : ∀ serial, parseAndReadSerialNumberPointer device array = .ok serial →
    ∀ n, s.length ≤ n → decode serial n = some s
  distinct : ∀ device' array' s', Replies device' array' s' → s' ≠ s →
    parseAndReadSerialNumberPointer device' array' ≠ parseAndReadSerialNumberPointer device array

section Serial

variable {device : Device} {array : Item} {s : List Byte}

/-- A device gives as many bytes as it was asked for, and these are fewer than
`2 ^ 16`. -/
theorem length_readIdprom {ptr : SerialPointer} (h : readIdprom device ptr = .ok s) :
    s.length = ptr.readNumBytes.toNat := by
  rw [readIdprom] at h
  split at h
  case h_1 bytes _ =>
      cases h
      exact bytes.property
  case h_2 => cases h

theorem Replies.isaArray (h : Replies device array s) : array.isaArray = true := by
  obtain ⟨ptr, hptr, _⟩ := h
  obtain ⟨_, _, _, _, _, _, _, rfl, _⟩ := decodeSerialPointer_eq_ok_iff.mp hptr
  rfl

/-- Encoding into a buffer, and cutting the buffer to the count returned. -/
theorem take_encode (output : List Byte) (h : s.length ≤ 2 ^ 28) :
    ∃ count chars, encode s output = some (count, chars) ∧
      chars.take count = (base32 s).take output.length := by
  rw [encode, if_neg (Nat.not_lt.mpr h)]
  refine ⟨_, _, rfl, ?_⟩
  rw [List.take_left' rfl, encodeChars_eq]

/-- The serial number is cut off at the number of bytes. -/
theorem Replies.parse_eq (h : Replies device array s) :
    parseAndReadSerialNumberPointer device array = .ok ((base32 s).take s.length) := by
  obtain ⟨ptr, hptr, hread⟩ := h
  have hlength : s.length ≤ 2 ^ 28 := by
    have hlt := ptr.readNumBytes.isLt
    rw [length_readIdprom hread]
    omega
  obtain ⟨count, chars, hencode, htake⟩ :=
    take_encode (List.replicate s.length 0) hlength
  rw [List.length_replicate] at htake
  refine except_bind_eq_ok.mpr ⟨ptr, hptr, except_bind_eq_ok.mpr ⟨s, hread, ?_⟩⟩
  simp only [hencode]
  exact congrArg Except.ok htake

theorem parseAndReadSerialNumberPointer_returns_iff :
    (∃ serial, parseAndReadSerialNumberPointer device array = .ok serial) ↔
      ∃ s, Replies device array s := by
  constructor
  · rintro ⟨serial, h⟩
    obtain ⟨ptr, hptr, h⟩ := except_bind_eq_ok.mp h
    obtain ⟨s, hread, _⟩ := except_bind_eq_ok.mp h
    exact ⟨s, ptr, hptr, hread⟩
  · rintro ⟨s, h⟩
    exact ⟨_, h.parse_eq⟩

/-- No byte needs no character, and every byte more than one. -/
theorem take_base32_eq_iff : (base32 s).take s.length = base32 s ↔ s = [] := by
  rw [List.take_eq_self_iff, length_base32]
  constructor
  · intro hle
    exact List.length_eq_zero_iff.mp (by omega)
  · rintro rfl
    decide

theorem take_base32_ne_nil (h : s ≠ []) : (base32 s).take s.length ≠ [] := by
  have hpos := List.length_pos_iff.mpr h
  rw [← List.length_pos_iff, List.length_take, length_base32]
  omega

/-- The serial number is faithful to the bytes if and only if there are none. -/
theorem faithful_iff (h : Replies device array s) : Faithful device array s ↔ s = [] := by
  constructor
  · intro hfaithful
    have hcomplete := hfaithful.complete
    rw [h.parse_eq] at hcomplete
    exact take_base32_eq_iff.mp (Except.ok.inj hcomplete)
  · rintro rfl
    constructor
    · rw [h.parse_eq, take_base32_eq_iff.mpr rfl]
    · intro serial hserial n _
      rw [h.parse_eq, take_base32_eq_iff.mpr rfl] at hserial
      cases hserial
      rw [decode_base32, List.take_nil]
    · intro device' array' s' h' hne heq
      rw [h.parse_eq, h'.parse_eq] at heq
      exact take_base32_ne_nil hne (Except.ok.inj heq)

end Serial

/-- A pointer to bytes of one device. -/
def pointerTo (address offset count : Nat) : Item :=
  .array true [.uint .int8 address, .uint .int8 offset, .uint .int8 count]

/-- A device that holds zeros. -/
def zeros : Device := fun _ _ n => some ⟨List.replicate n 0, List.length_replicate⟩

theorem replies_zeros : Replies zeros (pointerTo 0x58 0x80 1) [0] := ⟨_, rfl, rfl⟩

theorem faithful_zeros_nil : Faithful zeros (pointerTo 0x58 0x80 0) [] ∧
    ¬ Faithful zeros (pointerTo 0x58 0x80 1) [0] :=
  ⟨(faithful_iff ⟨_, rfl, rfl⟩).mpr rfl,
    fun h => List.cons_ne_nil _ _ ((faithful_iff replies_zeros).mp h)⟩

/-- Of one byte the serial number shows the upper five bits. -/
theorem not_faithful_byte : ∃ device array s, Replies device array s ∧
    parseAndReadSerialNumberPointer device array = .ok (ascii "A") ∧ base32 s = ascii "AA" ∧
    ¬ Faithful device array s := by
  have hparse := replies_zeros.parse_eq
  have hbase32 : base32 [0] = ascii "AA" := by decide
  rw [hbase32] at hparse
  refine ⟨zeros, pointerTo 0x58 0x80 1, [0], replies_zeros, hparse, hbase32, ?_⟩
  intro h
  have hcomplete := h.complete
  rw [hparse, hbase32] at hcomplete
  exact absurd (Except.ok.inj hcomplete) (by decide)

end Idprom
