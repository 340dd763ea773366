/-
# `Cpp.Double` — floating point values

A `double` is a rational, an infinity or a NaN; the sign of zero is not
modelled.  What the code does with these values is to clamp them and to narrow
the result to eight bits, and the product in between is rounded.

`std::clamp` compares with `<`, which is false of a NaN on either side, so it
hands a NaN through.  The conversion of a NaN to `uint8_t` is the one of the
target: the conversion instruction saturates, and takes a NaN to zero.
-/
import ProgrammableLoad.Cpp.Fault
import ProgrammableLoad.Cpp.Rounding

namespace Cpp

inductive Double where
  | num (q : ℚ)
  | inf (negative : Bool)
  | nan
deriving DecidableEq

namespace Double

/-- `std::clamp(v, 0., 1.)` -/
def clamp01 : Double → Double
  | .num q => .num (max 0 (min 1 q))
  | .inf false => .num 1
  | .inf true => .num 0
  | .nan => .nan

/-- `static_cast<uint8_t>(v * 0xff)` -/
def toByte (r : Rounding) : Double → Byte
  | .num q => BitVec.ofInt 8 ⌊r.round (q * 255)⌋
  | .inf false => 255
  | .inf true => 0
  | .nan => 0

/-- The duty cycle of a brightness: the clamped value in units of 1/255,
rounded down after the product was rounded. -/
def duty (r : Rounding) (v : Double) : Byte := v.clamp01.toByte r

variable {r : Rounding}

/-- The conversion of a number is defined: the product stays in the range of a
byte. -/
theorem toNat_duty (r : Rounding) (q : ℚ) :
    (((num q).duty r).toNat : ℤ) = ⌊r.round (max 0 (min 1 q) * 255)⌋ := by
  have hnonneg : 0 ≤ max 0 (min 1 q) * 255 := mul_nonneg (le_max_left _ _) (by norm_num)
  have hle : max 0 (min 1 q) * 255 ≤ (255 : ℕ) := by
    have hone : max 0 (min 1 q) ≤ 1 := max_le zero_le_one (min_le_left _ _)
    push_cast
    linarith
  have hzero : 0 ≤ ⌊r.round (max 0 (min 1 q) * 255)⌋ :=
    Int.floor_nonneg.mpr (Rounding.round_nonneg hnonneg)
  have hmax : ⌊r.round (max 0 (min 1 q) * 255)⌋ ≤ 255 := by
    have hround := Int.floor_le_floor (Rounding.round_le_natCast (r := r) (by norm_num) hnonneg hle)
    rwa [Int.floor_natCast] at hround
  show ((BitVec.ofInt 8 ⌊r.round (max 0 (min 1 q) * 255)⌋).toNat : ℤ) = _
  rw [BitVec.toNat_ofInt]
  omega

/-- In exact arithmetic the duty cycle of a number is the clamped number times
255, rounded down. -/
theorem toNat_duty_exact (q : ℚ) :
    (((num q).duty .exact).toNat : ℤ) = ⌊max 0 (min 1 q) * 255⌋ := toNat_duty .exact q

/-- A product a little below 1 is rounded up to it, and makes a step of the duty
cycle that it does not make in exact arithmetic. -/
example : (num (282578800148737 / 2 ^ 56)).duty .nearest = 1 ∧
    (num (282578800148737 / 2 ^ 56)).duty .exact = 0 := by decide +kernel

/-- A product that is a whole number is not rounded. -/
theorem duty_of_mul_eq {q : ℚ} {n : ℕ} (hn : n ≤ 255) (h : max 0 (min 1 q) * 255 = n) :
    (num q).duty r = BitVec.ofNat 8 n := by
  have hnat := toNat_duty r q
  rw [h, Rounding.round_natCast (by omega), Int.floor_natCast] at hnat
  apply BitVec.eq_of_toNat_eq
  rw [BitVec.toNat_ofNat]
  omega

@[simp] theorem duty_one : (num 1).duty r = 255 := duty_of_mul_eq le_rfl (by norm_num)

@[simp] theorem duty_zero : (num 0).duty r = 0 := duty_of_mul_eq (Nat.zero_le _) (by norm_num)

end Double

end Cpp
