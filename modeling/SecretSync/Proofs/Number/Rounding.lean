import Mathlib.Algebra.Order.Field.Power
import Mathlib.Tactic.FieldSimp
import Mathlib.Tactic.Linarith
import Mathlib.Tactic.Positivity
import Mathlib.Tactic.Ring
import SecretSync.Number.Shortest

/-!
Rounding to floats. The rationals around a float that are nearer to it than to any other are rounded to it, and so
are the two half way to its neighbours if its mantissa is even. Main statement: `bitsOfRatio_eq`.
-/

namespace SecretSync

theorem twoPow_eq (n : Nat) : twoPow n = 2 ^ n := by
  rw [twoPow, Nat.pow_eq]

theorem tenPow_eq (n : Nat) : tenPow n = 10 ^ n := by
  rw [tenPow, Nat.pow_eq]

-- A power with an integer exponent, as the quotient of two powers of which one is trivial.
theorem zpow_eq_div {b : ℚ} (positive : 0 < b) (e : Int) : b ^ e = b ^ e.toNat / b ^ (-e).toNat := by
  rw [← zpow_natCast, ← zpow_natCast, ← zpow_sub₀ positive.ne']
  congr 1
  omega

-- A ratio, both parts of it scaled by a power of which one is trivial.
theorem scaled_div (num den : Nat) (b : Nat) (positive : 0 < b) (e : Int) :
    ((num * b ^ (-e).toNat : Nat) : ℚ) / ((den * b ^ e.toNat : Nat) : ℚ) = (num : ℚ) / den / (b : ℚ) ^ e := by
  have positive : (0 : ℚ) < b := by exact_mod_cast positive
  rw [zpow_eq_div positive]
  push_cast
  field_simp

namespace Binary64

-- A number of this size is the nearest one, or one of two nearest ones and even.
theorem roundHalfEven_eq {num den n : Nat} (positive : 0 < den) (low : 2 * n * den ≤ 2 * num + den)
    (high : 2 * num ≤ (2 * n + 1) * den)
    (odd : n % 2 = 1 → 2 * n * den < 2 * num + den ∧ 2 * num < (2 * n + 1) * den) :
    roundHalfEven num den = n := by
  have split := Nat.div_add_mod num den
  have small := Nat.mod_lt num positive
  rw [roundHalfEven]
  generalize num / den = quotient at split ⊢
  generalize num % den = rest at split small ⊢
  have above : quotient ≤ n := by
    by_contra large
    have : (n + 1) * den ≤ quotient * den := Nat.mul_le_mul_right den (by omega)
    linarith
  have below : n ≤ quotient + 1 := by
    by_contra large
    have : (quotient + 2) * den ≤ n * den := Nat.mul_le_mul_right den (by omega)
    linarith
  rcases Nat.eq_or_lt_of_le above with eq | lt
  case inl =>
    subst eq
    have within : 2 * rest ≤ den := by linarith
    have tie : 2 * rest = den → quotient % 2 = 0 := by
      intro half
      by_contra uneven
      have := (odd (by omega)).right
      linarith
    split
    case isTrue => rfl
    case isFalse notBelow =>
      have half : 2 * rest = den := by omega
      simp [half, tie half]
  case inr =>
    have eq : n = quotient + 1 := by omega
    subst eq
    have within : den ≤ 2 * rest := by linarith
    have tie : 2 * rest = den → quotient % 2 = 1 := by
      intro half
      by_contra even
      have := (odd (by omega)).left
      linarith
    rw [if_neg (by omega), if_neg]
    simp only [Bool.and_eq_true, decide_eq_true_eq, not_and]
    intro half
    have := tie half
    omega

-- A mantissa and an exponent of a positive float, in the only form that a float has.
structure IsPositive (m : Nat) (e : Int) : Prop where
  positive : 0 < m
  narrow   : m < 2 ^ 53
  least    : leastExponent ≤ e
  greatest : e ≤ 971
  normal   : 2 ^ 52 ≤ m ∨ e = leastExponent

end Binary64

namespace Decimal.Interval

-- A rational inside the interval.
def Holds (i : Interval) (q : ℚ) : Prop :=
  (i.low : ℚ) / i.den ≤ q ∧ q ≤ (i.high : ℚ) / i.den ∧
    (i.closed = false → (i.low : ℚ) / i.den < q ∧ q < (i.high : ℚ) / i.den)

-- How far the interval goes down, in units of the last binary digit.
def gap (m : Nat) (e : Int) : ℚ :=
  if m = 2 ^ 52 ∧ e ≠ Binary64.leastExponent then 1 / 4 else 1 / 2

variable (m : Nat) (e : Int)

theorem gap_le_half : gap m e ≤ 1 / 2 := by
  rw [gap]
  split
  · norm_num
  · exact le_rfl

-- The interval is given in quarters of a unit.
theorem quarters_div (n : Nat) :
    ((n * twoPow (e - 2).toNat : Nat) : ℚ) / (twoPow (2 - e).toNat : Nat) = n / 4 * 2 ^ e := by
  have scaled := zpow_eq_div (b := 2) (by norm_num) (e - 2)
  have eq : -(e - 2) = 2 - e := by omega
  rw [zpow_sub₀ (by norm_num), eq] at scaled
  rw [twoPow_eq, twoPow_eq]
  push_cast
  rw [mul_div_assoc, ← scaled]
  norm_num
  ring

theorem low_div (positive : 0 < m) :
    ((ofBinary m e).low : ℚ) / (ofBinary m e).den = (m - gap m e) * 2 ^ e := by
  rw [ofBinary, quarters_div, gap, twoPow_eq]
  by_cases bound : m = 2 ^ 52 ∧ e ≠ Binary64.leastExponent
  case pos =>
    simp only [bound.left, ne_eq, bound.right, not_false_eq_true, decide_true, Bool.and_self, if_true,
      and_self]
    norm_num
  case neg =>
    have off : ¬(decide (m = 2 ^ 52) && decide (e ≠ Binary64.leastExponent)) = true := by
      simpa using bound
    rw [if_neg off, if_neg bound, Nat.cast_sub (by omega)]
    push_cast
    ring

theorem value_div : ((ofBinary m e).value : ℚ) / (ofBinary m e).den = m * 2 ^ e := by
  rw [ofBinary, quarters_div]
  push_cast
  ring

theorem high_div : ((ofBinary m e).high : ℚ) / (ofBinary m e).den = (m + 1 / 2) * 2 ^ e := by
  rw [ofBinary, quarters_div]
  push_cast
  ring

end Decimal.Interval

namespace Binary64

open Decimal.Interval (gap gap_le_half low_div high_div)

-- The exponent at which a ratio has 53 binary digits, or fewer at the least one.
structure Fits (q : ℚ) (e : Int) : Prop where
  least  : leastExponent ≤ e
  narrow : q / 2 ^ e < 2 ^ 53
  normal : 2 ^ 52 ≤ q / 2 ^ e ∨ e = leastExponent

variable {num den : Nat}

theorem le_div (positive : 0 < num) (positive' : 0 < den) :
    (2 : ℚ) ^ ((num.log2 : Int) - den.log2 - 1) ≤ num / den := by
  have low : (2 : ℚ) ^ num.log2 ≤ num := by exact_mod_cast Nat.log2_self_le positive.ne'
  have high : (den : ℚ) ≤ 2 ^ (den.log2 + 1) := by exact_mod_cast Nat.lt_log2_self.le
  have : (0 : ℚ) < den := by exact_mod_cast positive'
  calc (2 : ℚ) ^ ((num.log2 : Int) - den.log2 - 1) = 2 ^ num.log2 / 2 ^ (den.log2 + 1) := by
        rw [← zpow_natCast, ← zpow_natCast, ← zpow_sub₀ (by norm_num)]
        congr 1
        push_cast
        ring
    _ ≤ num / den := by gcongr

theorem div_lt (num : Nat) {den : Nat} (positive' : 0 < den) :
    (num : ℚ) / den < 2 ^ ((num.log2 : Int) - den.log2 + 1) := by
  have high : (num : ℚ) < 2 ^ (num.log2 + 1) := by exact_mod_cast Nat.lt_log2_self
  have low : (2 : ℚ) ^ den.log2 ≤ den := by exact_mod_cast Nat.log2_self_le positive'.ne'
  calc (num : ℚ) / den < 2 ^ (num.log2 + 1) / 2 ^ den.log2 := by gcongr
    _ = 2 ^ ((num.log2 : Int) - den.log2 + 1) := by
        rw [← zpow_natCast, ← zpow_natCast, ← zpow_sub₀ (by norm_num)]
        congr 1
        push_cast
        ring

-- The exponent that is tried first, and the next one unless that is large enough.
def guess (num den : Nat) : Int :=
  max leastExponent ((num.log2 : Int) - den.log2 - 53)

def chosen (num den : Nat) : Int :=
  if num * twoPow (-guess num den).toNat / (den * twoPow (guess num den).toNat) < twoPow 53 then guess num den
  else guess num den + 1

theorem bitsOfRatio_of_pos (positive : 0 < num) :
    bitsOfRatio num den =
      min ((chosen num den - leastExponent).toNat * twoPow 52 +
        roundHalfEven (num * twoPow (-chosen num den).toNat) (den * twoPow (chosen num den).toNat)) infiniteBits := by
  rw [bitsOfRatio, if_neg positive.ne']
  rfl

theorem fits_chosen (positive : 0 < num) (positive' : 0 < den) : Fits (num / den) (chosen num den) := by
  have pow (e : Int) : (0 : ℚ) < 2 ^ e := by positivity
  have test (e : Int) : num * twoPow (-e).toNat / (den * twoPow e.toNat) < twoPow 53 ↔
      (num : ℚ) / den / 2 ^ e < 2 ^ 53 := by
    have := scaled_div num den 2 (by norm_num) e
    simp only [twoPow_eq, Nat.cast_ofNat] at this ⊢
    rw [← this, Nat.div_lt_iff_lt_mul (by positivity), div_lt_iff₀ (by positivity)]
    norm_cast
  have low := le_div positive positive'
  have high := div_lt num positive'
  generalize spread : (num.log2 : Int) - den.log2 = k at low high
  have base : guess num den = max leastExponent (k - 53) := by rw [guess, spread]
  -- A ratio that is too large for the first exponent is halved by the next one.
  have enough : (2 : ℚ) ^ 52 ≤ num / den / 2 ^ (k - 53) := by
    rw [le_div_iff₀ (pow _), ← zpow_natCast, ← zpow_add₀ (by norm_num)]
    exact low.trans' (by rw [show ((52 : ℕ) : Int) + (k - 53) = k - 1 by omega])
  rw [chosen]
  split
  case isTrue narrow =>
    rw [test] at narrow
    refine ⟨by omega, narrow, ?_⟩
    rcases le_or_gt (k - 53) leastExponent with small | large
    case inl => exact .inr (by omega)
    case inr =>
      rw [base, max_eq_right large.le]
      exact .inl enough
  case isFalse wide =>
    rw [test] at wide
    have doubled : (num : ℚ) / den / 2 ^ (guess num den + 1) = num / den / 2 ^ guess num den / 2 := by
      rw [zpow_add_one₀ (by norm_num)]
      ring
    refine ⟨by omega, ?_, .inl ?_⟩
    · rw [div_lt_iff₀ (pow _), ← zpow_natCast, ← zpow_add₀ (by norm_num)]
      refine high.trans_le (zpow_le_zpow_right₀ (by norm_num) ?_)
      omega
    · rw [doubled]
      linarith

-- How near a ratio has to be to a mantissa, to be rounded to it.
theorem roundHalfEven_scaled {n : Nat} {e : Int} (positive : 0 < den) (low : (n : ℚ) - 1 / 2 ≤ num / den / 2 ^ e)
    (high : (num : ℚ) / den / 2 ^ e ≤ n + 1 / 2)
    (odd : n % 2 = 1 → (n : ℚ) - 1 / 2 < num / den / 2 ^ e ∧ (num : ℚ) / den / 2 ^ e < n + 1 / 2) :
    roundHalfEven (num * twoPow (-e).toNat) (den * twoPow e.toNat) = n := by
  have ratio := scaled_div num den 2 (by norm_num) e
  have above : 0 < den * twoPow e.toNat := Nat.mul_pos positive (Nat.two_pow_pos _)
  have positive : (0 : ℚ) < (den * twoPow e.toNat : Nat) := by exact_mod_cast above
  simp only [Nat.cast_ofNat] at ratio
  rw [← ratio] at low high odd
  rw [← twoPow_eq, ← twoPow_eq] at low high odd
  generalize num * twoPow (-e).toNat = a at low high odd ⊢
  generalize den * twoPow e.toNat = b at above positive low high odd ⊢
  rw [le_div_iff₀ positive] at low
  rw [div_le_iff₀ positive] at high
  rw [lt_div_iff₀ positive, div_lt_iff₀ positive] at odd
  apply roundHalfEven_eq above
  · have : (2 * n * b : ℚ) ≤ 2 * a + b := by linarith
    exact_mod_cast this
  · have : (2 * a : ℚ) ≤ (2 * n + 1) * b := by linarith
    exact_mod_cast this
  · intro uneven
    have ⟨least, most⟩ := odd uneven
    have below : (2 * n * b : ℚ) < 2 * a + b := by linarith
    have above : (2 * a : ℚ) < (2 * n + 1) * b := by linarith
    exact ⟨by exact_mod_cast below, by exact_mod_cast above⟩

theorem IsPositive.bits_lt {m : Nat} {e : Int} (float : IsPositive m e) :
    (e - leastExponent).toNat * twoPow 52 + m < infiniteBits := by
  have := float.narrow
  have := float.greatest
  have := float.least
  simp only [leastExponent, infiniteBits, twoPow_eq] at *
  omega

-- A ratio in units of the last binary digit of a float, between the ends of the interval around it.
structure Around (m : Nat) (e : Int) (q : ℚ) : Prop where
  low  : (m : ℚ) - gap m e ≤ q
  high : q ≤ m + 1 / 2
  ties : m % 2 = 1 → (m : ℚ) - gap m e < q ∧ q < m + 1 / 2

theorem around_of_holds {m : Nat} {e : Int} {q : ℚ} (positive : 0 < m)
    (near : (Decimal.Interval.ofBinary m e).Holds q) : Around m e (q / 2 ^ e) := by
  have unit : (0 : ℚ) < 2 ^ e := by positivity
  obtain ⟨low, high, ties⟩ := near
  rw [low_div m e positive, ← le_div_iff₀ unit] at low
  rw [high_div, ← div_le_iff₀ unit] at high
  rw [low_div m e positive, high_div, ← lt_div_iff₀ unit, ← div_lt_iff₀ unit] at ties
  refine ⟨low, high, fun odd => ties ?_⟩
  simp [Decimal.Interval.ofBinary, odd]

-- Such a ratio has its 53 digits at the exponent of the float, or else it lies just below a power of two and has
-- them at the exponent before that.
theorem Fits.cases {m : Nat} {e E : Int} {q : ℚ} (float : IsPositive m e) (around : Around m e (q / 2 ^ e))
    (fits : Fits q E) : E = e ∨ m = 2 ^ 52 ∧ e = E + 1 ∧ gap m e = 1 / 4 := by
  have unit (e : Int) : (0 : ℚ) < 2 ^ e := by positivity
  have narrow : (m : ℚ) ≤ 2 ^ 53 - 1 := by
    have : m + 1 ≤ 2 ^ 53 := float.narrow
    have : (m : ℚ) + 1 ≤ 2 ^ 53 := by exact_mod_cast this
    linarith
  rcases lt_trichotomy E e with before | eq | after
  case inr.inl => exact .inl eq
  case inr.inr =>
    -- The ratio would be 2 ^ 53 units or more.
    have := float.least
    have normal := fits.normal.resolve_right (by omega)
    rw [le_div_iff₀ (unit E)] at normal
    have step : (2 : ℚ) ^ (e + 1) ≤ 2 ^ E := zpow_le_zpow_right₀ (by norm_num) after
    rw [zpow_add_one₀ (by norm_num)] at step
    have high := around.high
    rw [div_le_iff₀ (unit e)] at high
    have := mul_le_mul_of_nonneg_right narrow (unit e).le
    linarith [unit e]
  case inl =>
    have := fits.least
    have normal : 2 ^ 52 ≤ m := float.normal.resolve_right (by omega)
    have below := fits.narrow
    rw [div_lt_iff₀ (unit E)] at below
    have low := around.low
    rw [le_div_iff₀ (unit e)] at low
    have step : (2 : ℚ) ^ (E + 1) ≤ 2 ^ e := zpow_le_zpow_right₀ (by norm_num) before
    rw [zpow_add_one₀ (by norm_num)] at step
    have short : (m : ℚ) - gap m e < 2 ^ 52 := by
      have : ((m : ℚ) - gap m e) * 2 ^ e < 2 ^ 52 * 2 ^ e := by linarith
      exact lt_of_mul_lt_mul_right this (unit e).le
    have wide : (2 ^ 52 : ℚ) ≤ m := by exact_mod_cast normal
    have bound : m = 2 ^ 52 := by
      have : (m : ℚ) < 2 ^ 52 + 1 := by linarith [gap_le_half m e]
      have : m < 2 ^ 52 + 1 := by exact_mod_cast this
      omega
    have quarter : gap m e = 1 / 4 := if_pos ⟨bound, by omega⟩
    refine .inr ⟨bound, ?_, quarter⟩
    by_contra apart
    have step : (2 : ℚ) ^ (E + 1 + 1) ≤ 2 ^ e := zpow_le_zpow_right₀ (by norm_num) (by omega)
    rw [zpow_add_one₀ (by norm_num), zpow_add_one₀ (by norm_num)] at step
    rw [quarter] at low
    have : (2 ^ 52 : ℚ) * 2 ^ e ≤ m * 2 ^ e := mul_le_mul_of_nonneg_right wide (unit e).le
    linarith [unit e]

theorem Around.pos {m : Nat} {e : Int} {q : ℚ} (positive : 0 < m) (around : Around m e q) : 0 < q := by
  have whole : (1 : ℚ) ≤ m := by exact_mod_cast positive
  linarith [around.low, gap_le_half m e]

-- A ratio in the interval around a float is rounded to that float.
theorem bitsOfRatio_eq {m : Nat} {e : Int} (float : IsPositive m e) (positive' : 0 < den)
    (near : (Decimal.Interval.ofBinary m e).Holds (num / den)) :
    bitsOfRatio num den = (e - leastExponent).toNat * twoPow 52 + m := by
  have around := around_of_holds float.positive near
  have positive : 0 < num := by
    refine Nat.pos_of_ne_zero fun zero => ?_
    have := around.pos float.positive
    simp [zero] at this
  have fits := fits_chosen positive positive'
  have least := fits.least
  rw [bitsOfRatio_of_pos positive]
  rcases fits.cases float around with eq | ⟨power, eq, quarter⟩
  case inl =>
    have wide := gap_le_half m e
    rw [eq, roundHalfEven_scaled positive' (n := m)]
    · exact min_eq_left float.bits_lt.le
    · linarith [around.low]
    · exact around.high
    · intro odd
      have ⟨low, high⟩ := around.ties odd
      exact ⟨by linarith, high⟩
  case inr =>
    -- The mantissa is rounded up to 2 ^ 53, which carries into the exponent.
    have doubled : (num : ℚ) / den / 2 ^ chosen num den = 2 * (num / den / 2 ^ e) := by
      rw [eq, zpow_add_one₀ (by norm_num)]
      ring
    have narrow := fits.narrow
    have low := around.low
    rw [quarter, power] at low
    push_cast at low
    rw [roundHalfEven_scaled positive' (n := 2 ^ 53)]
    · have same : (chosen num den - leastExponent).toNat * twoPow 52 + 2 ^ 53 =
          (e - leastExponent).toNat * twoPow 52 + m := by
        simp only [twoPow_eq] at *
        omega
      rw [same]
      exact min_eq_left float.bits_lt.le
    · push_cast
      linarith
    · push_cast
      linarith
    · intro odd
      norm_num at odd

end Binary64
end SecretSync
