import Mathlib.Data.Int.Log
import Mathlib.Data.Rat.Floor

/-!
# Rounding to floating-point numbers

Non-negative rationals rounded to binary floating-point numbers with a leading digit
and `t` digits after it, to nearest with ties to even.  The exponent is not bounded,
so the numbers are those of an actual format where it neither overflows nor
underflows.

Rounding is monotone (`round_mono`) and leaves alone what it has rounded
(`round_round`), which is all that bounds on computed numbers need: a bound that is
itself a number of the format survives every rounding.
-/

namespace Seraphbot.Rounding

/-! ## To integers -/

/-- The nearest integer, the even one of two. -/
def nearestEven (x : ℚ) : ℤ :=
  if Int.fract x < 1 / 2 then ⌊x⌋
  else if 1 / 2 < Int.fract x then ⌊x⌋ + 1
  else ⌊x⌋ + ⌊x⌋ % 2

theorem floor_le_nearestEven (x : ℚ) : ⌊x⌋ ≤ nearestEven x := by
  unfold nearestEven
  split_ifs <;> omega

theorem nearestEven_le_floor_add_one (x : ℚ) : nearestEven x ≤ ⌊x⌋ + 1 := by
  unfold nearestEven
  split_ifs <;> omega

theorem nearestEven_intCast (n : ℤ) : nearestEven n = n := by
  simp [nearestEven]

theorem nearestEven_mono {x y : ℚ} (h : x ≤ y) : nearestEven x ≤ nearestEven y := by
  rcases (Int.floor_mono h).lt_or_eq with hlt | heq
  · exact (nearestEven_le_floor_add_one x).trans (hlt.trans_le (floor_le_nearestEven y))
  · have hfract : Int.fract x ≤ Int.fract y := by
      unfold Int.fract
      rw [heq]
      exact sub_le_sub_right h _
    rcases lt_trichotomy (Int.fract x) (1 / 2) with hx | hx | hx
    · have hdown : nearestEven x = ⌊x⌋ := if_pos hx
      rw [hdown, heq]
      exact floor_le_nearestEven y
    · have hy : ¬ Int.fract y < 1 / 2 := (hx ▸ hfract).not_gt
      unfold nearestEven
      rw [if_neg hx.not_lt, if_neg hx.not_gt, if_neg hy, heq]
      split_ifs <;> omega
    · have hup : nearestEven y = ⌊y⌋ + 1 := by
        unfold nearestEven
        rw [if_neg (hx.trans_le hfract).not_gt, if_pos (hx.trans_le hfract)]
      rw [hup, ← heq]
      exact nearestEven_le_floor_add_one x

/-! ## To floating-point numbers -/

variable (t : ℕ)

/-- The distance between two numbers of the format, about `x`. -/
def ulp (x : ℚ) : ℚ := 2 ^ (Int.log 2 x - t)

/-- The nearest number of the format. -/
def round (x : ℚ) : ℚ := nearestEven (x / ulp t x) * ulp t x

theorem ulp_pos (x : ℚ) : 0 < ulp t x := zpow_pos two_pos _

theorem two_pow_mul_ulp (x : ℚ) : 2 ^ t * ulp t x = 2 ^ Int.log 2 x := by
  unfold ulp
  rw [← zpow_natCast, ← zpow_add₀ two_ne_zero, add_sub_cancel]

/-- A multiple of the distance about it is a number of the format. -/
theorem round_of_multiple {x : ℚ} {n : ℤ} (h : n * ulp t x = x) : round t x = x := by
  have hdiv : x / ulp t x = n := (eq_div_of_mul_eq (ulp_pos t x).ne' h).symm
  unfold round
  rw [hdiv, nearestEven_intCast, h]

theorem round_zero : round t 0 = 0 := round_of_multiple t (n := 0) (by simp)

theorem round_two_zpow (k : ℤ) : round t (2 ^ k) = 2 ^ k := by
  refine round_of_multiple t (n := 2 ^ t) ?_
  have h := two_pow_mul_ulp t (2 ^ k)
  rw [show Int.log 2 ((2 : ℚ) ^ k) = k from Int.log_zpow one_lt_two k] at h
  push_cast
  exact h

theorem round_one : round t 1 = 1 := round_two_zpow t 0

/-- A number is not rounded below its binade. -/
theorem two_zpow_log_le_round {x : ℚ} (hx : 0 < x) : 2 ^ Int.log 2 x ≤ round t x := by
  have hle : ((2 ^ t : ℤ) : ℚ) ≤ x / ulp t x := by
    rw [le_div_iff₀ (ulp_pos t x)]
    push_cast
    rw [two_pow_mul_ulp]
    exact Int.zpow_log_le_self one_lt_two hx
  have hround := nearestEven_mono hle
  rw [nearestEven_intCast] at hround
  rw [← two_pow_mul_ulp t]
  exact mul_le_mul_of_nonneg_right (by exact_mod_cast hround) (ulp_pos t x).le

/-- At most, a number is rounded to the start of the next binade. -/
theorem round_le_two_zpow_log (x : ℚ) : round t x ≤ 2 ^ (Int.log 2 x + 1) := by
  have hpow : ((2 ^ (t + 1) : ℤ) : ℚ) * ulp t x = 2 ^ (Int.log 2 x + 1) := by
    push_cast
    rw [pow_succ', mul_assoc, two_pow_mul_ulp, zpow_add_one₀ two_ne_zero, mul_comm]
  have hle : x / ulp t x ≤ ((2 ^ (t + 1) : ℤ) : ℚ) := by
    rw [div_le_iff₀ (ulp_pos t x), hpow]
    exact (Int.lt_zpow_succ_log_self one_lt_two x).le
  have hround := nearestEven_mono hle
  rw [nearestEven_intCast] at hround
  rw [← hpow]
  exact mul_le_mul_of_nonneg_right (by exact_mod_cast hround) (ulp_pos t x).le

theorem round_nonneg {x : ℚ} (hx : 0 ≤ x) : 0 ≤ round t x := by
  rcases hx.eq_or_lt with rfl | hpos
  · exact (round_zero t).ge
  · exact (zpow_pos two_pos _).le.trans (two_zpow_log_le_round t hpos)

theorem round_mono {x y : ℚ} (hx : 0 ≤ x) (h : x ≤ y) : round t x ≤ round t y := by
  rcases hx.eq_or_lt with rfl | hpos
  · rw [round_zero]
    exact round_nonneg t h
  · rcases (Int.log_mono_right (b := 2) hpos h).lt_or_eq with hlt | heq
    · calc round t x ≤ 2 ^ (Int.log 2 x + 1) := round_le_two_zpow_log t x
        _ ≤ 2 ^ Int.log 2 y := zpow_le_zpow_right₀ one_le_two hlt
        _ ≤ round t y := two_zpow_log_le_round t (hpos.trans_le h)
    · have hulp : ulp t x = ulp t y := by rw [ulp, ulp, heq]
      unfold round
      rw [hulp]
      have hround := nearestEven_mono (div_le_div_of_nonneg_right h (ulp_pos t y).le)
      exact mul_le_mul_of_nonneg_right (by exact_mod_cast hround) (ulp_pos t y).le

/-- Rounding gives a number of the format. -/
theorem round_round {x : ℚ} (hx : 0 ≤ x) : round t (round t x) = round t x := by
  rcases hx.eq_or_lt with rfl | hpos
  · rw [round_zero, round_zero]
  · have hlow := two_zpow_log_le_round t hpos
    have hround := (zpow_pos two_pos _).trans_le hlow
    rcases (round_le_two_zpow_log t x).eq_or_lt with hcarry | hlt
    · rw [hcarry, round_two_zpow]
    · -- the rounded number lies in the same binade
      have hlog : Int.log 2 (round t x) = Int.log 2 x :=
        le_antisymm (Int.lt_add_one_iff.mp ((Int.lt_zpow_iff_log_lt one_lt_two hround).mp hlt))
          ((Int.zpow_le_iff_le_log one_lt_two hround).mp hlow)
      have hulp : ulp t (round t x) = ulp t x := by rw [ulp, ulp, hlog]
      refine round_of_multiple t (n := nearestEven (x / ulp t x)) ?_
      rw [hulp]
      rfl

end Seraphbot.Rounding
