/-
# `Theory.Utf8` — strings as bytes, and where they may be cut

A buffer of bytes may take only the first part of a string.  What is left is
a string again just when the byte behind the cut starts a character, or when
there is none.
-/
import Mathlib.Data.List.Basic

namespace Utf8

/-- The bytes of a string in UTF-8. -/
def utf8 (s : String) : List (BitVec 8) := s.toByteArray.data.toList.map UInt8.toBitVec

variable {s t : String} {n : Nat}

theorem length_utf8 (s : String) : (utf8 s).length = s.utf8ByteSize := by
  rw [utf8, List.length_map, Array.length_toList, ByteArray.size_data, String.size_toByteArray]

theorem utf8_eq_take_iff :
    utf8 t = (utf8 s).take n ↔ t.toByteArray = s.toByteArray.extract 0 n := by
  have hinj : Function.Injective UInt8.toBitVec := fun _ _ h => UInt8.toBitVec_inj.mp h
  have htake : (s.toByteArray.extract 0 n).data.toList = s.toByteArray.data.toList.take n := by
    rw [ByteArray.data_extract, Array.toList_extract, List.extract_eq_take_drop, Nat.sub_zero,
      List.drop_zero]
  rw [utf8, utf8, ← List.map_take, hinj.list_map.eq_iff, ← htake]
  constructor
  · intro h
    exact ByteArray.ext (Array.toList_inj.mp h)
  · intro h
    rw [h]

theorem utf8_inj (h : utf8 t = utf8 s) : t = s := by
  rw [← List.take_length (l := utf8 s), utf8_eq_take_iff, length_utf8, ← String.size_toByteArray,
    ByteArray.extract_zero_size] at h
  exact String.toByteArray_inj.mp h

/-- The byte at a place in the string. -/
theorem getElem?_utf8 (h : n < s.utf8ByteSize) :
    (utf8 s)[n]? = some (s.getUTF8Byte ⟨n⟩ h).toBitVec := by
  have hsize : n < s.toByteArray.data.toList.length := by
    rw [Array.length_toList, ByteArray.size_data, String.size_toByteArray]
    exact h
  rw [utf8, List.getElem?_map, List.getElem?_eq_getElem hsize]
  rfl

theorem exists_utf8_eq_take_iff_isValidUTF8 (s : String) (n : Nat) :
    (∃ t, utf8 t = (utf8 s).take n) ↔ (s.toByteArray.extract 0 n).IsValidUTF8 := by
  simp only [utf8_eq_take_iff]
  constructor
  · rintro ⟨t, ht⟩
    rw [← ht]
    exact t.isValidUTF8
  · intro h
    exact ⟨String.ofByteArray _ h, rfl⟩

/-- Within the string the byte behind the cut decides. -/
theorem isValidUTF8_extract_iff (h : n < s.utf8ByteSize) :
    (s.toByteArray.extract 0 n).IsValidUTF8 ↔ (s.getUTF8Byte ⟨n⟩ h).IsUTF8FirstByte := by
  have hne : (⟨n⟩ : String.Pos.Raw) ≠ s.rawEndPos := by
    intro heq
    exact absurd (congrArg String.Pos.Raw.byteIdx heq) (Nat.ne_of_lt h)
  have hpos : (s.toByteArray.extract 0 n).IsValidUTF8 ↔ String.Pos.Raw.IsValid s ⟨n⟩ := by
    rw [String.Pos.Raw.isValid_iff_isValidUTF8_extract_zero]
    exact ⟨fun hvalid => ⟨Nat.le_of_lt h, hvalid⟩, And.right⟩
  rw [hpos, String.Pos.Raw.isValid_iff_isUTF8FirstByte, or_iff_right hne]
  constructor
  · rintro ⟨_, hfirst⟩
    exact hfirst
  · intro hfirst
    exact ⟨h, hfirst⟩

/-- A cut through the bytes leaves a string just where a character starts. -/
theorem exists_utf8_eq_take_iff (s : String) (n : Nat) :
    (∃ t, utf8 t = (utf8 s).take n) ↔
      ∀ b, (utf8 s)[n]? = some b → (UInt8.ofBitVec b).IsUTF8FirstByte := by
  rw [exists_utf8_eq_take_iff_isValidUTF8]
  rcases Nat.lt_or_ge n s.utf8ByteSize with hlt | hge
  · rw [isValidUTF8_extract_iff hlt, getElem?_utf8 hlt]
    constructor
    · intro hfirst b hb
      cases hb
      exact hfirst
    · intro h
      exact h _ rfl
  · have hlength : (utf8 s).length ≤ n := by
      rw [length_utf8]
      exact hge
    refine iff_of_true ?_ ?_
    · rw [← exists_utf8_eq_take_iff_isValidUTF8]
      exact ⟨s, (List.take_of_length_le hlength).symm⟩
    · intro b hb
      rw [List.getElem?_eq_none hlength] at hb
      cases hb

theorem utf8_ofList (l : List Char) : utf8 (String.ofList l)
    = (l.flatMap String.utf8EncodeChar).map UInt8.toBitVec := by
  rw [utf8, String.toByteArray_ofList, List.utf8Encode, List.data_toByteArray]

end Utf8
