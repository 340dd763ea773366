/-
# `Theory.Mixing` — operations that lose nothing of a word

Exclusive or with a word, addition of one, multiplication by an odd one,
rotation, and `x ^^^ x >>> k` each turn the words of one width into one another.
A function that is made of them does so too, by composition.
-/
import Mathlib.Data.Fintype.EquivFin

namespace Mixing

open Function

variable {w : Nat}

theorem bijective_xor (c : BitVec w) : Bijective fun x : BitVec w => x ^^^ c := by
  have hinv : Involutive fun x : BitVec w => x ^^^ c := by
    intro x
    show x ^^^ c ^^^ c = x
    rw [BitVec.xor_assoc, BitVec.xor_self, BitVec.xor_zero]
  exact hinv.bijective

theorem bijective_add (c : BitVec w) : Bijective fun x : BitVec w => x + c :=
  bijective_iff_has_inverse.mpr
    ⟨fun x => x - c, fun x => BitVec.add_sub_cancel x c, fun x => BitVec.sub_add_cancel x c⟩

/-- A factor with an inverse. -/
theorem bijective_mul {c d : BitVec w} (h : c * d = 1#w) :
    Bijective fun x : BitVec w => x * c := by
  have hback : d * c = 1#w := (BitVec.mul_comm d c).trans h
  refine bijective_iff_has_inverse.mpr ⟨fun x => x * d, fun x => ?_, fun x => ?_⟩
  · show x * c * d = x
    rw [BitVec.mul_assoc, h, BitVec.mul_one]
  · show x * d * c = x
    rw [BitVec.mul_assoc, hback, BitVec.mul_one]

/-- There are finitely many words of one width. -/
theorem bijective_of_injective {f : BitVec w → BitVec w} (h : Injective f) : Bijective f := by
  have hfinite : Finite (BitVec w) := by
    refine .of_injective BitVec.toFin fun _ _ heq => ?_
    exact BitVec.eq_of_toFin_eq heq
  exact Finite.injective_iff_bijective.mp h

/-- The bits that are shifted out on the left come back on the right. -/
theorem bijective_rotate {r : Nat} (hr : r < w) :
    Bijective fun x : BitVec w => x <<< r ||| x >>> (w - r) := by
  apply bijective_of_injective
  intro x y h
  have hbit : ∀ i < w, (x <<< r ||| x >>> (w - r)).getLsbD i
      = (y <<< r ||| y >>> (w - r)).getLsbD i := fun i _ => congrArg (·.getLsbD i) h
  apply BitVec.eq_of_getLsbD_eq
  intro i hi
  by_cases hlow : i + r < w
  · have hhigh : ∀ z : BitVec w, z.getLsbD (w - r + (i + r)) = false :=
      fun z => BitVec.getLsbD_of_ge z _ (by omega)
    have hnot : ¬ i + r < r := Nat.not_lt.mpr (Nat.le_add_left r i)
    simpa [hi, hlow, hhigh, hnot] using hbit (i + r) hlow
  · have hback : w - r + (i - (w - r)) = i := by omega
    have hshift : i - (w - r) < r := by omega
    simpa [hshift, hback] using hbit (i - (w - r)) (by omega)

/-- From the top down: the bit at `i` follows from the one `k` places above it. -/
theorem bijective_xorShiftRight {k : Nat} (hk : 0 < k) :
    Bijective fun x : BitVec w => x ^^^ x >>> k := by
  apply bijective_of_injective
  intro x y h
  have hbit : ∀ i, (x ^^^ x >>> k).getLsbD i = (y ^^^ y >>> k).getLsbD i :=
    fun i => congrArg (·.getLsbD i) h
  have htop : ∀ n i, w ≤ n + i → x.getLsbD i = y.getLsbD i := by
    intro n
    induction n with
    | zero =>
        intro i hi
        rw [BitVec.getLsbD_of_ge x i (by omega), BitVec.getLsbD_of_ge y i (by omega)]
    | succ n ih =>
        intro i hi
        have habove := ih (k + i) (by omega)
        have := hbit i
        rw [BitVec.getLsbD_xor, BitVec.getLsbD_xor, BitVec.getLsbD_ushiftRight,
          BitVec.getLsbD_ushiftRight, habove] at this
        exact Bool.xor_left_inj.mp this
  apply BitVec.eq_of_getLsbD_eq
  intro i _
  exact htop w i (Nat.le_add_right w i)

end Mixing
