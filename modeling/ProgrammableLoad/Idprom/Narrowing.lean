/-
# `Idprom.Narrowing` — the numbers of the payload

CBOR numbers have up to 64 bits.  The prober and the drivers read them in full
and put them into members of eight or sixteen bits without a test, so a number
that does not fit is not refused: another one takes its place.

For each of the three places that do so, the payload is read without undefined
behaviour and what is used is what was given, if and only if it can be read and
the numbers of everything that is accepted fit, `exact_iff`.
-/
import ProgrammableLoad.Idprom.SerialNumber
import ProgrammableLoad.Led.Config
import ProgrammableLoad.Touch.Config

namespace Idprom

open Cpp Cbor Cbor.Util

/-! ## Used as they are -/

/-- A pointer that is followed leads to the device, the address and the length
that the array has. -/
structure PointerExact (array : Item) : Prop where
  defined : Defined (decodeSerialPointer array)
  eq : ∀ ptr, decodeSerialPointer array = .ok ptr →
    ∀ definite w₁ w₂ w₃ device address count rest,
    array = .array definite (.uint w₁ device :: .uint w₂ address :: .uint w₃ count :: rest) →
      ptr.deviceAddress.toNat = device ∧ ptr.readAddress.toNat = address ∧
        ptr.readNumBytes.toNat = count

/-- A touch controller that is set up has the address and the size of its
configuration. -/
structure TouchExact (config : Item) : Prop where
  defined : Defined (Touch.readConfig config)
  address : ∀ c, Touch.readConfig config = .ok c →
    ∀ width addr, config.Has "addr" (.uint width addr) → c.address.toNat = addr
  size : ∀ c, Touch.readConfig config = .ok c → ∀ definite w₁ w w₂ h,
    config.Has "size" (.array definite [.uint w₁ w, .uint w₂ h]) →
      c.panel.size.1.toNat = w ∧ c.panel.size.2.toNat = h

/-- An LED controller that is set up has the address and the resistance of its
configuration. -/
structure LedExact (config : Item) : Prop where
  defined : Defined (Led.Pca9955.readConfig config)
  address : ∀ c, Led.Pca9955.readConfig config = .ok c →
    ∀ width addr, config.Has "addr" (.uint width addr) → c.address.toNat = addr
  rext : ∀ c, Led.Pca9955.readConfig config = .ok c →
    ∀ width rext, config.Has "rext" (.uint width rext) → c.rext.toNat = rext

/-! ## Numbers that fit -/

structure PointerFits (array : Item) : Prop where
  isaArray : array.isaArray = true
  fits : ∀ w₁ w₂ w₃ device address count rest,
    array = .array true (.uint w₁ device :: .uint w₂ address :: .uint w₃ count :: rest) →
      device < 2 ^ 8 ∧ address < 2 ^ 16 ∧ count < 2 ^ 16

structure TouchFits (config : Item) : Prop where
  readable : Touch.Readable config
  fits : ∀ addr w h, Touch.Accepts config addr w h → addr < 2 ^ 8 ∧ w < 2 ^ 16 ∧ h < 2 ^ 16

structure LedFits (config : Item) : Prop where
  readable : Led.Pca9955.Readable config
  fits : ∀ addr rext, Led.Pca9955.Accepts config addr rext → addr < 2 ^ 8 ∧ rext < 2 ^ 16

theorem toNat_ofNat_eq_iff {w n : Nat} : (BitVec.ofNat w n).toNat = n ↔ n < 2 ^ w := by
  rw [BitVec.toNat_ofNat]
  constructor
  · intro h
    rw [← h]
    exact Nat.mod_lt n (Nat.two_pow_pos w)
  · exact Nat.mod_eq_of_lt

theorem pointerExact_iff {array : Item} : PointerExact array ↔ PointerFits array := by
  constructor
  · intro h
    refine ⟨defined_decodeSerialPointer_iff.mp h.defined, ?_⟩
    rintro w₁ w₂ w₃ device address count rest rfl
    obtain ⟨hdevice, haddress, hcount⟩ := h.eq _
      (decodeSerialPointer_eq_ok_iff.mpr ⟨w₁, w₂, w₃, device, address, count, rest, rfl, rfl⟩)
      true w₁ w₂ w₃ device address count rest rfl
    exact ⟨toNat_ofNat_eq_iff.mp hdevice, toNat_ofNat_eq_iff.mp haddress,
      toNat_ofNat_eq_iff.mp hcount⟩
  · rintro ⟨hdefined, h⟩
    refine ⟨defined_decodeSerialPointer_iff.mpr hdefined, ?_⟩
    rintro ptr hptr definite w₁ w₂ w₃ device address count rest rfl
    obtain ⟨_, _, _, _, _, _, _, heq, rfl⟩ := decodeSerialPointer_eq_ok_iff.mp hptr
    cases heq
    obtain ⟨hdevice, haddress, hcount⟩ := h w₁ w₂ w₃ device address count rest rfl
    exact ⟨toNat_ofNat_eq_iff.mpr hdevice, toNat_ofNat_eq_iff.mpr haddress,
      toNat_ofNat_eq_iff.mpr hcount⟩

theorem touchExact_iff {config : Item} : TouchExact config ↔ TouchFits config := by
  constructor
  · intro h
    refine ⟨Touch.defined_readConfig_iff.mp h.defined, ?_⟩
    rintro addr w ht haccepts
    obtain ⟨c, hc, haddr, hsize⟩ := haccepts.readConfig_eq_ok
    obtain ⟨width, hhas⟩ := haccepts.addr
    obtain ⟨w₁, w₂, hhas'⟩ := haccepts.size
    have haddress := h.address c hc width addr hhas
    obtain ⟨hwidth, hheight⟩ := h.size c hc true w₁ w w₂ ht hhas'
    rw [haddr] at haddress
    rw [hsize] at hwidth hheight
    exact ⟨toNat_ofNat_eq_iff.mp haddress, toNat_ofNat_eq_iff.mp hwidth,
      toNat_ofNat_eq_iff.mp hheight⟩
  · rintro ⟨hreadable, h⟩
    refine ⟨Touch.defined_readConfig_iff.mpr hreadable, ?_, ?_⟩
    · intro c hc width addr hhas
      obtain ⟨addr', w, ht, haccepts, haddr, _⟩ := Touch.readConfig_eq_ok hc
      obtain ⟨_, hhas'⟩ := haccepts.addr
      cases hhas.eq hhas'
      rw [haddr]
      exact toNat_ofNat_eq_iff.mpr (h addr w ht haccepts).1
    · intro c hc definite w₁ w w₂ ht hhas
      obtain ⟨addr, w', ht', haccepts, _, hsize⟩ := Touch.readConfig_eq_ok hc
      obtain ⟨_, _, hhas'⟩ := haccepts.size
      cases hhas.eq hhas'
      rw [hsize]
      obtain ⟨_, hwidth, hheight⟩ := h addr w ht haccepts
      exact ⟨toNat_ofNat_eq_iff.mpr hwidth, toNat_ofNat_eq_iff.mpr hheight⟩

theorem ledExact_iff {config : Item} : LedExact config ↔ LedFits config := by
  constructor
  · intro h
    refine ⟨Led.Pca9955.defined_readConfig_iff.mp h.defined, ?_⟩
    intro addr rext haccepts
    obtain ⟨c, hc, haddr, hrext⟩ := haccepts.readConfig_eq_ok
    obtain ⟨width, hhas⟩ := haccepts.addr
    obtain ⟨width', hhas'⟩ := haccepts.rext
    have haddress := h.address c hc width addr hhas
    have hresistance := h.rext c hc width' rext hhas'
    rw [haddr] at haddress
    rw [hrext] at hresistance
    exact ⟨toNat_ofNat_eq_iff.mp haddress, toNat_ofNat_eq_iff.mp hresistance⟩
  · rintro ⟨hreadable, h⟩
    refine ⟨Led.Pca9955.defined_readConfig_iff.mpr hreadable, ?_, ?_⟩
    · intro c hc width addr hhas
      obtain ⟨addr', rext, haccepts, haddr, _⟩ := Led.Pca9955.readConfig_eq_ok hc
      obtain ⟨_, hhas'⟩ := haccepts.addr
      cases hhas.eq hhas'
      rw [haddr]
      exact toNat_ofNat_eq_iff.mpr (h addr rext haccepts).1
    · intro c hc width rext hhas
      obtain ⟨addr, rext', haccepts, _, hrext⟩ := Led.Pca9955.readConfig_eq_ok hc
      obtain ⟨_, hhas'⟩ := haccepts.rext
      cases hhas.eq hhas'
      rw [hrext]
      exact toNat_ofNat_eq_iff.mpr (h addr rext haccepts).2

/-- A pointer and the two configurations are read without undefined behaviour
and their numbers used as they are, if and only if they can be read and the
numbers of what is accepted fit. -/
theorem exact_iff (array touch led : Item) :
    (PointerExact array ↔ PointerFits array) ∧ (TouchExact touch ↔ TouchFits touch) ∧
      (LedExact led ↔ LedFits led) :=
  ⟨pointerExact_iff, touchExact_iff, ledExact_iff⟩

/-- A device with a ten-bit address: the read goes to the one with its low
eight bits. -/
theorem not_pointerExact_tenBit :
    ¬ PointerExact (.array true [.uint .int16 0x158, .uint .int8 0x80, .uint .int8 16]) := by
  intro h
  have hdevice := (h.eq _ rfl true .int16 .int8 .int8 0x158 0x80 16 [] rfl).1
  revert hdevice
  decide

end Idprom
