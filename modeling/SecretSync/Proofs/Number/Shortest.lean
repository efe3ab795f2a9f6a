import Mathlib.Data.Nat.Cast.Order.Field
import SecretSync.Proofs.Number.Rounding

/-!
Shortest decimals. The decimal that is found for a float lies in the interval of the numbers that are rounded to
it, as seventeen digits always suffice. Main statement: `shortest_holds`.
-/

namespace SecretSync.Decimal

open Binary64 (IsPositive)

-- The number that a decimal stands for.
def toRat (d : Decimal) : ℚ :=
  d.digits * 10 ^ d.exponent

theorem toRat_dropZeros (fuel : Nat) (d : Decimal) : (dropZeros fuel d).toRat = d.toRat := by
  induction fuel generalizing d
  case zero => rfl
  case succ fuel hi =>
    rw [dropZeros]
    split
    case isFalse => rfl
    case isTrue h =>
      simp only [Bool.and_eq_true, decide_eq_true_eq] at h
      have split : (d.digits : ℚ) = (d.digits / 10 : Nat) * 10 := by
        have : d.digits = d.digits / 10 * 10 := by omega
        exact_mod_cast this
      rw [hi, toRat, toRat, zpow_add_one₀ (by norm_num), split]
      ring

theorem le_exponent_dropZeros (fuel : Nat) (d : Decimal) : d.exponent ≤ (dropZeros fuel d).exponent := by
  induction fuel generalizing d
  case zero => exact le_rfl
  case succ fuel hi =>
    rw [dropZeros]
    split
    case isFalse => exact le_rfl
    case isTrue =>
      refine Int.le_trans ?_ (hi _)
      exact Int.le_add_one le_rfl

-- Where the point is.

theorem pow_digitCount_le (fuel : Nat) {n : Nat} (positive : 0 < n) : 10 ^ digitCount fuel n ≤ 10 * n := by
  induction fuel generalizing n
  case zero => exact Nat.mul_le_mul_left 10 positive
  case succ fuel hi =>
    rw [digitCount]
    split
    case isTrue => exact Nat.mul_le_mul_left 10 positive
    case isFalse =>
      have := hi (n := n / 10) (by omega)
      rw [Nat.pow_succ]
      omega

theorem leadingZeros_spec {den : Nat} {fuel k : Nat} (within : k ≤ fuel) {num : Nat} (j : Nat)
    (enough : den ≤ num * 10 ^ k) :
    leadingZeros num den fuel j ≤ j + k ∧ ∃ zeros, leadingZeros num den fuel j = j + zeros ∧
      den ≤ num * 10 ^ zeros := by
  induction fuel generalizing num k j
  case zero =>
    obtain rfl := Nat.le_zero.mp within
    exact ⟨le_rfl, 0, rfl, enough⟩
  case succ fuel hi =>
    rw [leadingZeros]
    split
    case isTrue h => exact ⟨Nat.le_add_right j k, 0, rfl, by simpa using h⟩
    case isFalse h =>
      cases k
      case zero => exact absurd (by simpa using enough) h
      case succ k =>
        have enough : den ≤ num * 10 * 10 ^ k := by rwa [Nat.mul_assoc, ← Nat.pow_succ']
        have ⟨bound, zeros, eq, reached⟩ := hi (by omega) (j + 1) enough
        refine ⟨by omega, zeros + 1, by omega, ?_⟩
        rwa [Nat.pow_succ', ← Nat.mul_assoc]

-- The point is not further to the right than the first digit allows.
theorem pointPosition_spec {num den k : Nat} (positive : 0 < den) (within : k ≤ 400) (enough : den ≤ num * 10 ^ k) :
    (10 : ℚ) ^ (pointPosition num den - 1) ≤ num / den ∧ 1 - (k : Int) ≤ pointPosition num den := by
  have above : (0 : ℚ) < den := by exact_mod_cast positive
  rw [pointPosition]
  split
  case isTrue h =>
    have whole : 0 < num / den := Nat.div_pos h positive
    have count := pow_digitCount_le 400 whole
    have least : 1 ≤ digitCount 400 (num / den) := by
      rw [digitCount]
      split
      · exact le_rfl
      · exact Nat.le_add_left 1 _
    refine ⟨?_, by omega⟩
    have count : (10 : ℚ) ^ digitCount 400 (num / den) ≤ 10 * (num / den : Nat) := by exact_mod_cast count
    have rounded : ((num / den : Nat) : ℚ) ≤ num / den := Nat.cast_div_le
    rw [zpow_sub_one₀ (by norm_num), zpow_natCast]
    linarith
  case isFalse =>
    have ⟨bound, zeros, eq, reached⟩ := leadingZeros_spec within 0 enough
    refine ⟨?_, by omega⟩
    have reached : (den : ℚ) ≤ num * 10 ^ zeros := by exact_mod_cast reached
    rw [eq, le_div_iff₀ above, show (1 - ((0 + zeros : Nat) : Int) - 1) = -(zeros : Int) by omega, zpow_neg,
      zpow_natCast, inv_mul_le_iff₀ (by positivity)]
    linarith

namespace Interval

-- Whether a number of steps of a grid leads into the interval, as it is tested.
def isInside (i : Interval) (exponent : Int) (n : Nat) : Bool :=
  let up := tenPow (-exponent).toNat
  let den := i.den * tenPow exponent.toNat
  if i.closed then i.low * up ≤ n * den && n * den ≤ i.high * up
  else i.low * up < n * den && n * den < i.high * up

variable {i : Interval}

theorem isInside_iff (positive : 0 < i.den) (exponent : Int) (n : Nat) :
    i.isInside exponent n = true ↔ i.Holds (n * 10 ^ exponent) := by
  have step : (0 : ℚ) < 10 ^ exponent := by positivity
  have scale (num : Nat) := scaled_div num i.den 10 (by norm_num) exponent
  have above : (0 : ℚ) < (i.den * 10 ^ exponent.toNat : Nat) := by
    have : 0 < i.den * 10 ^ exponent.toNat := by positivity
    exact_mod_cast this
  simp only [Nat.cast_ofNat] at scale
  have atLeast (num : Nat) : num * 10 ^ (-exponent).toNat ≤ n * (i.den * 10 ^ exponent.toNat) ↔
      (num : ℚ) / i.den ≤ n * 10 ^ exponent := by
    rw [← div_le_iff₀ step, ← scale, div_le_iff₀ above]
    norm_cast
  have atMost (num : Nat) : n * (i.den * 10 ^ exponent.toNat) ≤ num * 10 ^ (-exponent).toNat ↔
      n * 10 ^ exponent ≤ (num : ℚ) / i.den := by
    rw [← le_div_iff₀ step, ← scale, le_div_iff₀ above]
    norm_cast
  simp only [isInside, tenPow_eq, Holds]
  cases i.closed
  case true => simp [atLeast, atMost]
  case false =>
    simp only [Bool.false_eq_true, if_false, Bool.and_eq_true, decide_eq_true_eq, ← Nat.not_le, atLeast, atMost,
      not_le, forall_const]
    exact ⟨fun h => ⟨h.left.le, h.right.le, h⟩, fun h => h.right.right⟩

-- The last step of the grid that does not go beyond the value.
def lower (i : Interval) (exponent : Int) : Nat :=
  i.value * tenPow (-exponent).toNat / (i.den * tenPow exponent.toNat)

theorem exists_onGrid?_eq (i : Interval) (exponent : Int) : ∃ nearer,
    onGrid? i exponent =
      if i.isInside exponent (i.lower exponent) && !(i.isInside exponent (i.lower exponent + 1) && nearer) then
        some ⟨i.lower exponent, exponent⟩
      else if i.isInside exponent (i.lower exponent + 1) then some ⟨i.lower exponent + 1, exponent⟩
      else none :=
  ⟨_, rfl⟩

theorem onGrid?_eq_some {exponent : Int} {d : Decimal} (h : onGrid? i exponent = some d) :
    d.exponent = exponent ∧ i.isInside exponent d.digits = true := by
  have ⟨nearer, eq⟩ := exists_onGrid?_eq i exponent
  rw [eq] at h
  split at h
  case isTrue inside =>
    cases h
    exact ⟨rfl, (Bool.and_eq_true_iff.mp inside).left⟩
  case isFalse =>
    split at h
    case isTrue inside =>
      cases h
      exact ⟨rfl, inside⟩
    case isFalse => cases h

theorem isSome_onGrid? {exponent : Int}
    (h : i.isInside exponent (i.lower exponent) = true ∨ i.isInside exponent (i.lower exponent + 1) = true) :
    (onGrid? i exponent).isSome = true := by
  have ⟨nearer, eq⟩ := exists_onGrid?_eq i exponent
  rw [eq]
  split
  case isTrue => rfl
  case isFalse out =>
    split
    case isTrue => rfl
    case isFalse out' =>
      have below := h.resolve_right out'
      simp [below, Bool.eq_false_iff.mpr out'] at out

theorem search_spec {fuel : Nat} (exponent : Int) (found : (onGrid? i (exponent - fuel)).isSome = true) :
    exponent - fuel ≤ (search i fuel exponent).exponent ∧
      i.isInside (search i fuel exponent).exponent (search i fuel exponent).digits = true := by
  induction fuel generalizing exponent
  case zero =>
    have ⟨d, eq⟩ := Option.isSome_iff_exists.mp found
    simp only [Nat.cast_zero, Int.sub_zero] at eq
    have ⟨same, inside⟩ := onGrid?_eq_some eq
    rw [search, eq, Option.getD_some, same]
    exact ⟨by omega, inside⟩
  case succ fuel hi =>
    rw [search]
    cases eq : onGrid? i exponent
    case some d =>
      have ⟨same, inside⟩ := onGrid?_eq_some eq
      rw [Option.getD_some, same]
      exact ⟨by omega, inside⟩
    case none =>
      have next : exponent - 1 - (fuel : Int) = exponent - (fuel + 1 : Nat) := by omega
      have ⟨bound, inside⟩ := hi (exponent - 1) (by rwa [next])
      rw [Option.getD_none]
      exact ⟨by omega, inside⟩

theorem lower_spec (positive : 0 < i.den) (exponent : Int) :
    (i.lower exponent : ℚ) * 10 ^ exponent ≤ (i.value : ℚ) / i.den ∧
      (i.value : ℚ) / i.den < (i.lower exponent + 1) * 10 ^ exponent := by
  have step : (0 : ℚ) < 10 ^ exponent := by positivity
  have scale := scaled_div i.value i.den 10 (by norm_num) exponent
  have above : 0 < i.den * 10 ^ exponent.toNat := by positivity
  have above' : (0 : ℚ) < (i.den * 10 ^ exponent.toNat : Nat) := by exact_mod_cast above
  simp only [Nat.cast_ofNat] at scale
  rw [← le_div_iff₀ step, ← div_lt_iff₀ step, ← scale, lower, tenPow_eq, tenPow_eq]
  refine ⟨Nat.cast_div_le, ?_⟩
  rw [div_lt_iff₀ above']
  exact_mod_cast (Nat.div_lt_iff_lt_mul above).mp (Nat.lt_succ_self _)

variable {m : Nat} {e : Int}

theorem den_ofBinary_pos (m : Nat) (e : Int) : 0 < (ofBinary m e).den :=
  Nat.two_pow_pos _

-- A number is inside the interval if it is nearer to the float than half the interval is long.
theorem holds_of_near {q : ℚ} (positive : 0 < m) (low : m * 2 ^ e - gap m e * 2 ^ e < q)
    (high : q < m * 2 ^ e + gap m e * 2 ^ e) : (ofBinary m e).Holds q := by
  have unit : (0 : ℚ) < 2 ^ e := by positivity
  have wide : gap m e * 2 ^ e ≤ 1 / 2 * 2 ^ e := mul_le_mul_of_nonneg_right (gap_le_half m e) unit.le
  rw [Holds, low_div m e positive, high_div]
  have below : ((m : ℚ) - gap m e) * 2 ^ e < q := by linarith
  have above : q < (m + 1 / 2) * 2 ^ e := by linarith
  exact ⟨below.le, above.le, fun _ => ⟨below, above⟩⟩

-- Seventeen digits suffice: steps of a grid that fine are shorter than the interval.
theorem isSome_onGrid?_of_fine (float : IsPositive m e) {exponent : Int}
    (fine : (10 : ℚ) ^ 16 * 10 ^ exponent ≤ m * 2 ^ e) : (onGrid? (ofBinary m e) exponent).isSome = true := by
  have unit : (0 : ℚ) < 2 ^ e := by positivity
  have ⟨low, high⟩ := lower_spec (den_ofBinary_pos m e) exponent
  have short : (10 : ℚ) ^ exponent / 2 < gap m e * 2 ^ e := by
    rw [gap]
    split
    case isTrue power =>
      rw [power.left] at fine
      push_cast at fine
      linarith
    case isFalse =>
      have narrow : (m : ℚ) < 2 ^ 53 := by exact_mod_cast float.narrow
      have : (m : ℚ) * 2 ^ e < 2 ^ 53 * 2 ^ e := mul_lt_mul_of_pos_right narrow unit
      linarith
  rw [value_div] at low high
  apply isSome_onGrid?
  simp only [isInside_iff (den_ofBinary_pos m e)]
  have nearest := le_or_gt (m * 2 ^ e - (lower (ofBinary m e) exponent : ℚ) * 10 ^ exponent) (10 ^ exponent / 2)
  rcases nearest with near | far
  case inl => exact .inl (holds_of_near float.positive (by linarith) (by linarith))
  case inr =>
    refine .inr (holds_of_near float.positive ?_ ?_)
    all_goals
      push_cast
      linarith

end Interval

variable {m : Nat} {e : Int}

-- No float is too small for its point to be found.
theorem den_le_value (float : IsPositive m e) :
    (Interval.ofBinary m e).den ≤ (Interval.ofBinary m e).value * 10 ^ 324 := by
  have value := Interval.value_div m e
  have above : (0 : ℚ) < (Interval.ofBinary m e).den := by exact_mod_cast Interval.den_ofBinary_pos m e
  have whole : (1 : ℚ) ≤ m := by exact_mod_cast float.positive
  have least : (2 : ℚ) ^ (-1074 : Int) ≤ 2 ^ e := zpow_le_zpow_right₀ (by norm_num) float.least
  have size : (1 : ℚ) ≤ 2 ^ (-1074 : Int) * 10 ^ 324 := by
    have : (2 : ℚ) ^ 1074 ≤ 10 ^ 324 :=
      calc (2 : ℚ) ^ 1074 = (2 ^ 179) ^ 6 := by rw [← pow_mul]
        _ ≤ (10 ^ 54) ^ 6 := pow_le_pow_left₀ (by norm_num) (by norm_num) 6
        _ = 10 ^ 324 := by rw [← pow_mul]
    rw [zpow_neg, ← div_eq_inv_mul, one_le_div (by positivity)]
    exact_mod_cast this
  have unit : (0 : ℚ) < 2 ^ e := by positivity
  have large : (1 : ℚ) ≤ m * 2 ^ e * 10 ^ 324 := by
    have : (2 : ℚ) ^ (-1074 : Int) ≤ m * 2 ^ e := least.trans (le_mul_of_one_le_left unit.le whole)
    exact size.trans (mul_le_mul_of_nonneg_right this (by positivity))
  rw [← value, div_mul_eq_mul_div, le_div_iff₀ above, one_mul] at large
  exact_mod_cast large

-- The shortest decimal is inside the interval, and its exponent is not too small.
theorem shortest_holds (float : IsPositive m e) :
    (Interval.ofBinary m e).Holds (shortest m e).toRat ∧ -340 ≤ (shortest m e).exponent := by
  have positive := Interval.den_ofBinary_pos m e
  have ⟨digits, bound⟩ := pointPosition_spec positive (by norm_num) (den_le_value float)
  rw [Interval.value_div] at digits
  generalize point : pointPosition (Interval.ofBinary m e).value (Interval.ofBinary m e).den = k at digits bound
  have fine : (10 : ℚ) ^ 16 * 10 ^ (k - 1 - (16 : Nat)) ≤ m * 2 ^ e := by
    rw [← zpow_natCast, ← zpow_add₀ (by norm_num)]
    refine digits.trans' (le_of_eq ?_)
    congr 1
    omega
  have ⟨least, inside⟩ := Interval.search_spec (k - 1) (Interval.isSome_onGrid?_of_fine float fine)
  rw [Interval.isInside_iff positive] at inside
  rw [shortest, point, toRat_dropZeros]
  exact ⟨inside, Int.le_trans (by omega) (le_exponent_dropZeros 20 _)⟩

end SecretSync.Decimal
