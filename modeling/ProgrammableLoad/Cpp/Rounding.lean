/-
# `Cpp.Rounding` — products of floating point numbers

The processor does not keep the exact product of two `double`s but a `double`
next to it.  What holds in every rounding mode is that the order of products is
kept and that a product which is a `double` is left alone: that is a
`Rounding`.  `Rounding.exact` is arithmetic with no error, and the modes of the
processor round the product, in units of the last place, to an integer, which
`Rounding.binary64` takes as a parameter.

Only numbers that are not negative come up.
-/
import Mathlib.Algebra.Order.Floor.Ring
import Mathlib.Algebra.Order.Round
import Mathlib.Data.Int.Log
import Mathlib.Data.Rat.Floor
import Mathlib.Tactic.Linarith
import Mathlib.Tactic.NormNum
import Mathlib.Tactic.Positivity

namespace Cpp

/-- How products are rounded to `double`s.  `keeps` is about the `double`s with
the significand `m` and the exponent `-k`. -/
structure Rounding where
  round : ℚ → ℚ
  mono : ∀ {p q}, 0 ≤ p → p ≤ q → round p ≤ round q
  keeps : ∀ m k : ℕ, m < 2 ^ 53 → k ≤ 1074 → round (m / 2 ^ k) = m / 2 ^ k

namespace Rounding

/-- No rounding at all. -/
def exact : Rounding where
  round q := q
  mono _ h := h
  keeps _ _ _ _ := rfl

variable {r : Rounding} {q : ℚ}

theorem round_natCast {n : ℕ} (h : n < 2 ^ 53) : r.round n = n := by
  have hkeeps := r.keeps n 0 h (Nat.zero_le _)
  rwa [pow_zero, div_one] at hkeeps

theorem round_nonneg (h : 0 ≤ q) : 0 ≤ r.round q := by
  have hzero : r.round (0 : ℕ) = (0 : ℕ) := round_natCast (by norm_num)
  rw [Nat.cast_zero] at hzero
  exact hzero ▸ r.mono le_rfl h

theorem round_le_natCast {n : ℕ} (hn : n < 2 ^ 53) (h : 0 ≤ q) (hle : q ≤ n) : r.round q ≤ n :=
  (r.mono h hle).trans_eq (round_natCast hn)

end Rounding

/-! ## The rounding modes -/

/-- A choice of an integer next to each number. -/
structure IntRounding where
  round : ℚ → ℤ
  mono : ∀ {p q}, p ≤ q → round p ≤ round q
  intCast : ∀ n : ℤ, round n = n

/-- To the nearest integer, and between two of them to the even one. -/
def halfEven (q : ℚ) : ℤ :=
  if Int.fract q < 1 / 2 then ⌊q⌋
  else if 1 / 2 < Int.fract q then ⌊q⌋ + 1
  else if Even ⌊q⌋ then ⌊q⌋
  else ⌊q⌋ + 1

theorem floor_le_halfEven (q : ℚ) : ⌊q⌋ ≤ halfEven q := by
  unfold halfEven
  split_ifs <;> omega

theorem halfEven_le_floor_add_one (q : ℚ) : halfEven q ≤ ⌊q⌋ + 1 := by
  unfold halfEven
  split_ifs <;> omega

theorem halfEven_mono {p q : ℚ} (hpq : p ≤ q) : halfEven p ≤ halfEven q := by
  rcases (Int.floor_mono hpq).lt_or_eq with hlt | heq
  · exact (halfEven_le_floor_add_one p).trans (hlt.trans_le (floor_le_halfEven q))
  · -- between the same integers the fractions decide
    have hfract : Int.fract p ≤ Int.fract q := by
      rw [Int.fract, Int.fract, heq]
      linarith
    unfold halfEven
    rw [heq]
    split_ifs <;> first | omega | linarith

def IntRounding.toNearest : IntRounding where
  round := halfEven
  mono := halfEven_mono
  intCast n := by simp [halfEven]

/-- The exponent of a number's last place. -/
def exponent (q : ℚ) : ℤ := max (Int.log 2 q - 52) (-1074)

/-- The number in units of its last place, rounded to an integer. -/
def roundBinary64 (mode : IntRounding) (q : ℚ) : ℚ :=
  mode.round (q / 2 ^ exponent q) * 2 ^ exponent q

section Binary64

variable {mode : IntRounding} {p q : ℚ}

theorem two_zpow_pos (e : ℤ) : (0 : ℚ) < 2 ^ e := zpow_pos two_pos e

theorem exists_units {e f : ℤ} (h : e ≤ f) : ∃ n : ℤ, (2 : ℚ) ^ f = n * 2 ^ e := by
  obtain ⟨n, hn⟩ := Int.le.dest h
  refine ⟨2 ^ n, ?_⟩
  rw [← hn, zpow_add₀ two_ne_zero, zpow_natCast, mul_comm]
  norm_cast

theorem round_zero : mode.round 0 = 0 := by simpa using mode.intCast 0

/-- In units that divide it, a bound is kept. -/
theorem round_mul_le {e f : ℤ} (he : e ≤ f) (h : p ≤ 2 ^ f) :
    (mode.round (p / 2 ^ e) : ℚ) * 2 ^ e ≤ 2 ^ f := by
  obtain ⟨n, hn⟩ := exists_units he
  have hround : mode.round (p / 2 ^ e) ≤ n := by
    refine (mode.mono ?_).trans_eq (mode.intCast n)
    exact (div_le_iff₀ (two_zpow_pos e)).mpr (hn ▸ h)
  rw [hn]
  exact mul_le_mul_of_nonneg_right (Int.cast_le.mpr hround) (two_zpow_pos e).le

theorem le_round_mul {e f : ℤ} (he : e ≤ f) (h : 2 ^ f ≤ p) :
    2 ^ f ≤ (mode.round (p / 2 ^ e) : ℚ) * 2 ^ e := by
  obtain ⟨n, hn⟩ := exists_units he
  have hround : n ≤ mode.round (p / 2 ^ e) := by
    refine (mode.intCast n).symm.trans_le (mode.mono ?_)
    exact (le_div_iff₀ (two_zpow_pos e)).mpr (hn ▸ h)
  rw [hn]
  exact mul_le_mul_of_nonneg_right (Int.cast_le.mpr hround) (two_zpow_pos e).le

theorem roundBinary64_zero : roundBinary64 mode 0 = 0 := by
  rw [roundBinary64, zero_div, round_zero, Int.cast_zero, zero_mul]

theorem roundBinary64_nonneg (h : 0 ≤ q) : 0 ≤ roundBinary64 mode q := by
  have hround : 0 ≤ mode.round (q / 2 ^ exponent q) :=
    round_zero.symm.trans_le (mode.mono (div_nonneg h (two_zpow_pos _).le))
  exact mul_nonneg (Int.cast_nonneg hround) (two_zpow_pos _).le

/-- Numbers with the same last place are kept in order by the mode; between
others there is a power of two. -/
theorem roundBinary64_mono (hp : 0 ≤ p) (hpq : p ≤ q) :
    roundBinary64 mode p ≤ roundBinary64 mode q := by
  rcases hp.eq_or_lt with rfl | hpos
  · rw [roundBinary64_zero]
    exact roundBinary64_nonneg hpq
  · have hlog : Int.log 2 p ≤ Int.log 2 q := Int.log_mono_right hpos hpq
    by_cases heq : exponent p = exponent q
    · rw [roundBinary64, roundBinary64, heq]
      have hdiv : p / 2 ^ exponent q ≤ q / 2 ^ exponent q :=
        div_le_div_of_nonneg_right hpq (two_zpow_pos _).le
      exact mul_le_mul_of_nonneg_right (Int.cast_le.mpr (mode.mono hdiv)) (two_zpow_pos _).le
    · have hlt : Int.log 2 p < Int.log 2 q := by
        refine lt_of_le_of_ne hlog fun h => heq ?_
        rw [exponent, exponent, h]
      have hbelow : p ≤ 2 ^ Int.log 2 q := by
        have hp := Int.lt_zpow_succ_log_self (b := 2) (by norm_num) p
        exact hp.le.trans (zpow_le_zpow_right₀ one_le_two hlt)
      have habove : 2 ^ Int.log 2 q ≤ q := by
        have hq := Int.zpow_log_le_self (b := 2) (by norm_num) (hpos.trans_le hpq)
        exact_mod_cast hq
      have hexponent : exponent q = Int.log 2 q - 52 := by
        unfold exponent at heq ⊢
        omega
      have hle : exponent p ≤ exponent q := by
        unfold exponent
        omega
      exact (round_mul_le (by omega) hbelow).trans (le_round_mul (by omega) habove)

/-- A `double` is a whole number of its last places. -/
theorem roundBinary64_keeps (m k : ℕ) (hm : m < 2 ^ 53) (hk : k ≤ 1074) :
    roundBinary64 mode (m / 2 ^ k) = m / 2 ^ k := by
  rcases Nat.eq_zero_or_pos m with rfl | hpos
  · rw [Nat.cast_zero, zero_div, roundBinary64_zero]
  · have hq : (0 : ℚ) < m / 2 ^ k := div_pos (Nat.cast_pos.mpr hpos) (by positivity)
    have hlt : (m : ℚ) / 2 ^ k < 2 ^ (53 - k : ℤ) := by
      rw [zpow_sub₀ two_ne_zero, zpow_natCast]
      exact div_lt_div_of_pos_right (by exact_mod_cast hm) (by positivity)
    have hlog : Int.log 2 ((m : ℚ) / 2 ^ k) < 53 - k :=
      (Int.lt_zpow_iff_log_lt (b := 2) (by norm_num) hq).mp (by exact_mod_cast hlt)
    have hle : exponent ((m : ℚ) / 2 ^ k) ≤ -k := by
      unfold exponent
      omega
    obtain ⟨n, hn⟩ := exists_units hle
    have hunits : (m : ℚ) / 2 ^ k = ((m * n : ℤ) : ℚ) * 2 ^ exponent ((m : ℚ) / 2 ^ k) := by
      rw [Int.cast_mul, mul_assoc, ← hn, zpow_neg, zpow_natCast, Int.cast_natCast, div_eq_mul_inv]
    rw [roundBinary64]
    nth_rewrite 1 [hunits]
    rw [mul_div_assoc, div_self (two_zpow_pos _).ne', mul_one, mode.intCast, ← hunits]

end Binary64

/-- What the processor does in a rounding mode. -/
def Rounding.binary64 (mode : IntRounding) : Rounding where
  round := roundBinary64 mode
  mono := roundBinary64_mono
  keeps := roundBinary64_keeps

/-- The rounding mode a program starts in. -/
def Rounding.nearest : Rounding := .binary64 .toNearest

end Cpp
