/-
# `Theory.Digits` — a bit string, cut into digits of one width

A word is the string of its bits, the most significant first.  A bit string is
cut into digits of `w` bits in two ways: `digits` fills the last one up with
zeros and `words` drops what does not make a whole one.  They are inverse to
writing the digits out, up to the zeros at the end, so a string of words can
be written in digits of another width and read back.
-/
import Mathlib

namespace Digits

variable {w : Nat} {l l' : List Bool}

/-! ## Words -/

/-- The bits of a word. -/
def bits (x : BitVec w) : List Bool := List.ofFn fun i : Fin w => x.getMsbD i

/-- The word that starts a bit string; what the string is short of is zero. -/
def word (w : Nat) (l : List Bool) : BitVec w :=
  BitVec.ofFnLE fun i : Fin w => l.getD (w - 1 - i) false

@[simp] theorem length_bits (x : BitVec w) : (bits x).length = w := List.length_ofFn

theorem getMsbD_word {i : Nat} (h : i < w) : (word w l).getMsbD i = l.getD i false := by
  have hsub : w - 1 - (w - 1 - i) = i := by omega
  rw [BitVec.getMsbD_eq_getLsbD, word, BitVec.getLsbD_ofFnLE]
  simp [h, hsub, show w - 1 - i < w by omega]

theorem getElem?_bits {x : BitVec w} {i : Nat} (h : i < w) : (bits x)[i]? = some (x.getMsbD i) := by
  simp [bits, h]

theorem word_append (h : l.length = w) : word w (l ++ l') = word w l := by
  apply BitVec.eq_of_getMsbD_eq
  intro i hi
  rw [getMsbD_word hi, getMsbD_word hi, List.getD_append _ _ _ _ (h ▸ hi)]

@[simp] theorem word_bits (x : BitVec w) : word w (bits x) = x := by
  apply BitVec.eq_of_getMsbD_eq
  intro i hi
  rw [getMsbD_word hi, List.getD_eq_getElem?_getD, getElem?_bits hi, Option.getD_some]

/-- A string that is too short is filled up with zeros. -/
theorem bits_word (h : l.length ≤ w) :
    bits (word w l) = l ++ List.replicate (w - l.length) false := by
  refine List.ext_getElem? fun i => ?_
  by_cases hi : i < w
  · rw [getElem?_bits hi, getMsbD_word hi, List.getD_eq_getElem?_getD]
    by_cases hl : i < l.length
    · rw [List.getElem?_append_left hl, List.getElem?_eq_getElem hl, Option.getD_some]
    · rw [List.getElem?_append_right (Nat.le_of_not_lt hl),
        List.getElem?_eq_none (Nat.le_of_not_lt hl), List.getElem?_replicate,
        if_pos (by omega), Option.getD_none]
  · rw [List.getElem?_eq_none (by simp; omega), List.getElem?_eq_none (by simp; omega)]

/-- The low bits of a word, in two parts. -/
theorem bits_setWidth_add {n : Nat} (x : BitVec n) (a b : Nat) :
    bits (x.setWidth (a + b)) = bits ((x >>> b).setWidth a) ++ bits (x.setWidth b) := by
  refine List.ext_getElem? fun i => ?_
  by_cases ha : i < a
  · rw [List.getElem?_append_left (by simpa using ha), getElem?_bits (by omega), getElem?_bits ha,
      BitVec.getMsbD_eq_getLsbD, BitVec.getMsbD_eq_getLsbD, BitVec.getLsbD_setWidth,
      BitVec.getLsbD_setWidth, BitVec.getLsbD_ushiftRight]
    have hindex : a + b - 1 - i = b + (a - 1 - i) := by omega
    rw [hindex]
    simp [ha, show i < a + b by omega, show b + (a - 1 - i) < a + b by omega,
      show a - 1 - i < a by omega]
  · rw [List.getElem?_append_right (by simpa using ha), length_bits]
    by_cases hb : i - a < b
    · rw [getElem?_bits (by omega), getElem?_bits hb, BitVec.getMsbD_eq_getLsbD,
        BitVec.getMsbD_eq_getLsbD, BitVec.getLsbD_setWidth, BitVec.getLsbD_setWidth]
      have hindex : a + b - 1 - i = b - 1 - (i - a) := by omega
      rw [hindex]
      simp [hb, show i < a + b by omega, show b - 1 - (i - a) < a + b by omega,
        show b - 1 - (i - a) < b by omega]
    · rw [List.getElem?_eq_none (by simp; omega), List.getElem?_eq_none (by simp; omega)]

/-! ## Digits -/

/-- The digits of a bit string, the last one filled up with zeros. -/
def digits (w : Nat) (l : List Bool) : List (BitVec w) :=
  (List.range ((l.length + (w - 1)) / w)).map fun i => word w (l.drop (i * w))

/-- The whole words in a bit string. -/
def words (w : Nat) (l : List Bool) : List (BitVec w) :=
  (List.range (l.length / w)).map fun i => word w (l.drop (i * w))

@[simp] theorem length_digits : (digits w l).length = (l.length + (w - 1)) / w := by
  simp [digits]

theorem digits_nil (hw : 0 < w) : digits w [] = [] := by
  have hzero : (w - 1) / w = 0 := Nat.div_eq_of_lt (by omega)
  simp [digits, hzero]

/-- The first digit, and the digits of the rest. -/
theorem digits_of_ne_nil (hw : 0 < w) (h : l ≠ []) :
    digits w l = word w l :: digits w (l.drop w) := by
  have hpos := List.length_pos_iff.mpr h
  have hcount : (l.length + (w - 1)) / w = ((l.drop w).length + (w - 1)) / w + 1 := by
    rw [List.length_drop]
    rcases Nat.le_total w l.length with hle | hle
    · rw [← Nat.add_div_right _ hw]
      congr 1
      omega
    · have hone : (l.length + (w - 1)) / w = 1 :=
        Nat.div_eq_of_lt_le (by omega) (by omega)
      have hzero : (l.length - w + (w - 1)) / w = 0 := Nat.div_eq_of_lt (by omega)
      rw [hone, hzero]
  rw [digits, hcount, List.range_succ_eq_map, List.map_cons, List.map_map, Nat.zero_mul,
    List.drop_zero, digits]
  congr 1
  refine List.map_congr_left fun i _ => ?_
  simp only [Function.comp_apply, List.drop_drop, Nat.succ_mul, Nat.add_comm]

theorem digits_append (hw : 0 < w) (h : l.length = w) :
    digits w (l ++ l') = word w l :: digits w l' := by
  have hne : l ++ l' ≠ [] := by
    intro hnil
    simp only [List.append_eq_nil_iff] at hnil
    rw [hnil.1, List.length_nil] at h
    omega
  rw [digits_of_ne_nil hw hne, word_append h, List.drop_left' h]

/-- Zeros behind the last digit make no difference. -/
theorem digits_append_zeros {k : Nat} (h : l ≠ []) (hk : l.length + k ≤ w) :
    digits w (l ++ List.replicate k false) = digits w l := by
  have hpos := List.length_pos_iff.mpr h
  have hw : 0 < w := by omega
  have hne : l ++ List.replicate k false ≠ [] := fun hnil => h (List.append_eq_nil_iff.mp hnil).1
  have hword : word w (l ++ List.replicate k false) = word w l := by
    apply BitVec.eq_of_getMsbD_eq
    intro i hi
    rw [getMsbD_word hi, getMsbD_word hi]
    by_cases hl : i < l.length
    · rw [List.getD_append _ _ _ _ hl]
    · rw [List.getD_append_right _ _ _ _ (by omega), List.getD_eq_default l _ (by omega),
        List.getD_eq_getElem?_getD, List.getElem?_getD_replicate_default_eq]
  rw [digits_of_ne_nil hw hne, digits_of_ne_nil hw h, hword, List.drop_of_length_le (by simp; omega),
    List.drop_of_length_le (by omega)]

theorem words_of_lt (h : l.length < w) : words w l = [] := by
  simp [words, Nat.div_eq_of_lt h]

theorem words_append (hw : 0 < w) (h : l.length = w) :
    words w (l ++ l') = word w l :: words w l' := by
  have hcount : (l ++ l').length / w = l'.length / w + 1 := by
    rw [List.length_append, h, Nat.add_comm, Nat.add_div_right _ hw]
  rw [words, hcount, List.range_succ_eq_map, List.map_cons, List.map_map, Nat.zero_mul,
    List.drop_zero, word_append h, words]
  congr 1
  refine List.map_congr_left fun i _ => ?_
  have hdrop : (l ++ l').drop (w + i * w) = l'.drop (i * w) := by
    rw [← List.drop_drop, List.drop_left' h]
  simp only [Function.comp_apply, Nat.succ_mul, Nat.add_comm _ w, hdrop]

/-! ## Writing the digits out -/

/-- The digits are the string and fewer than `w` zeros. -/
theorem flatMap_bits_digits (hw : 0 < w) (l : List Bool) :
    ∃ k < w, (digits w l).flatMap bits = l ++ List.replicate k false := by
  induction hn : l.length using Nat.strong_induction_on generalizing l with
  | _ n ih =>
      by_cases hl : l = []
      · subst hl
        exact ⟨0, hw, by simp [digits_nil hw]⟩
      · have hpos := List.length_pos_iff.mpr hl
        rw [digits_of_ne_nil hw hl, List.flatMap_cons]
        rcases Nat.lt_or_ge l.length w with hshort | hlong
        · refine ⟨w - l.length, by omega, ?_⟩
          rw [List.drop_of_length_le hshort.le, digits_nil hw, List.flatMap_nil, List.append_nil,
            bits_word hshort.le]
        · obtain ⟨k, hk, hrest⟩ := ih (l.drop w).length (by simp; omega) (l.drop w) rfl
          refine ⟨k, hk, ?_⟩
          have htake : (l.take w).length = w := List.length_take_of_le hlong
          have hword : bits (word w l) = l.take w := by
            rw [← List.take_append_drop w l, word_append htake, bits_word htake.le, htake,
              Nat.sub_self, List.replicate_zero, List.append_nil, List.take_left' htake]
          rw [hword, hrest, ← List.append_assoc, List.take_append_drop]

/-- A string of words is read back from its bits and what is left over. -/
theorem words_flatMap_bits (hw : 0 < w) (xs : List (BitVec w)) {rest : List Bool}
    (h : rest.length < w) : words w (xs.flatMap bits ++ rest) = xs := by
  induction xs with
  | nil => exact words_of_lt h
  | cons x xs ih =>
      rw [List.flatMap_cons, List.append_assoc, words_append hw (length_bits x), word_bits, ih]

/-- Words that are written in digits of at most their own width are read back. -/
theorem words_digits {v : Nat} (hv : 0 < v) (hle : v ≤ w) (xs : List (BitVec w)) :
    words w ((digits v (xs.flatMap bits)).flatMap bits) = xs := by
  obtain ⟨k, hk, hbits⟩ := flatMap_bits_digits hv (xs.flatMap bits)
  rw [hbits]
  exact words_flatMap_bits (by omega) xs (by simp; omega)

end Digits
