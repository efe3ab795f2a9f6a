import Mathlib
import SecretSync.Proofs.Number.Shortest

/-!
Floats and their decimals. A float is the one that its shortest decimal is rounded to, with whatever zeros the decimal
is written. There is one value that is no number, and one infinity of either sign. Main statements:
`floatOfDecimal_eq`, `eq_nan`.
-/

namespace SecretSync.Binary64

variable {x : Float} {negative : Bool} {m : Nat} {e : Int}

-- The bits of a float that is finite.
theorem toBits_of_finite (h : ofFloat x = .finite negative m e) :
    x.toBits.toNat = (e - leastExponent).toNat * twoPow 52 + m + (if negative then twoPow 63 else 0) ∧
      (m = 0 ∨ IsPositive m e) := by
  have small := x.toBits.toNat_lt
  simp only [ofFloat] at h
  generalize x.toBits.toNat = bits at small h ⊢
  split at h
  case isTrue =>
    split at h
    all_goals cases h
  case isFalse finite =>
    split at h
    case isTrue subnormal =>
      cases h
      simp only [twoPow_eq] at *
      refine ⟨?_, (Nat.eq_zero_or_pos _).imp_right fun positive => ?_⟩
      · simp only [decide_eq_true_eq, leastExponent]
        split
        all_goals omega
      · exact ⟨positive, by omega, by decide, by decide, .inr rfl⟩
    case isFalse normal =>
      cases h
      simp only [twoPow_eq] at *
      refine ⟨?_, .inr ⟨by omega, by omega, ?_, by omega, .inl (by omega)⟩⟩
      · simp only [decide_eq_true_eq, leastExponent]
        split
        all_goals omega
      · rw [leastExponent]
        omega

theorem floatOfRatio_eq {num den : Nat}
    (h : x.toBits.toNat = bitsOfRatio num den + (if negative then twoPow 63 else 0)) :
    floatOfRatio negative num den = x := by
  rw [floatOfRatio, ← h, UInt64.ofNat_toNat, Float.ofBits_toBits]

-- A decimal of that size is no more than the power of ten that is told from its digits.
theorem pow_size_le {n : Nat} (positive : n ≠ 0) : 10 ^ (n.log2 * 3 / 10) ≤ n := by
  have low : 2 ^ n.log2 ≤ n := Nat.log2_self_le positive
  refine (Nat.pow_le_pow_iff_left (n := 10) (by decide)).mp ?_
  calc (10 ^ (n.log2 * 3 / 10)) ^ 10 = 10 ^ (n.log2 * 3 / 10 * 10) := (Nat.pow_mul ..).symm
    _ ≤ 10 ^ (3 * n.log2) := Nat.pow_le_pow_right (by decide) (by omega)
    _ = (10 ^ 3) ^ n.log2 := Nat.pow_mul ..
    _ ≤ (2 ^ 10) ^ n.log2 := Nat.pow_le_pow_left (by decide) _
    _ = (2 ^ n.log2) ^ 10 := Nat.pow_right_comm ..
    _ ≤ n ^ 10 := Nat.pow_le_pow_left low 10

-- No number in the interval around a float is too large for one.
theorem lt_of_holds {q : ℚ} (float : IsPositive m e) (near : (Decimal.Interval.ofBinary m e).Holds q) :
    q < 10 ^ 400 := by
  have high := near.right.left
  have narrow : (m : ℚ) + 1 ≤ 2 ^ 53 := by exact_mod_cast float.narrow
  have unit : (2 : ℚ) ^ e ≤ 2 ^ (971 : Int) := zpow_le_zpow_right₀ (by norm_num) float.greatest
  rw [Decimal.Interval.high_div] at high
  calc q ≤ (m + 1 / 2) * 2 ^ e := high
    _ < 2 ^ 53 * 2 ^ e := mul_lt_mul_of_pos_right (by linarith) (by positivity)
    _ ≤ 2 ^ 53 * 2 ^ (971 : Int) := mul_le_mul_of_nonneg_left unit (by positivity)
    _ = (2 ^ 64) ^ 16 := by
      rw [← pow_mul, ← zpow_natCast, ← zpow_add₀ (by norm_num)]
      exact zpow_natCast 2 1024
    _ ≤ (10 ^ 25) ^ 16 := pow_le_pow_left₀ (by norm_num) (by norm_num) 16
    _ = 10 ^ 400 := by rw [← pow_mul]

theorem floatOfDecimal_eq (h : ofFloat x = .finite negative m e) (float : IsPositive m e) {n : Nat} {exponent : Int}
    (least : -400 ≤ exponent) (eq : (n : ℚ) * 10 ^ exponent = (Decimal.shortest m e).toRat) :
    floatOfDecimal negative n exponent = x := by
  have ⟨bits, _⟩ := toBits_of_finite h
  have ⟨near, _⟩ := Decimal.shortest_holds float
  rw [← eq] at near
  have positive : n ≠ 0 := by
    intro zero
    have := (around_of_holds float.positive near).pos float.positive
    simp [zero] at this
  have small : (n.log2 : Int) * 3 / 10 + exponent ≤ 400 := by
    have large := lt_of_holds float near
    have low : (10 : ℚ) ^ (n.log2 * 3 / 10) ≤ n := by exact_mod_cast pow_size_le positive
    have : (10 : ℚ) ^ (((n.log2 * 3 / 10 : Nat) : Int) + exponent) < 10 ^ (400 : Int) := by
      rw [zpow_add₀ (by norm_num), zpow_natCast]
      exact (mul_le_mul_of_nonneg_right low (by positivity)).trans_lt large
    have := (zpow_lt_zpow_iff_right₀ (by norm_num : (1 : ℚ) < 10)).mp this
    omega
  rw [zpow_eq_div (by norm_num), mul_div_assoc'] at near
  have near : (Decimal.Interval.ofBinary m e).Holds
      ((n * tenPow exponent.toNat : Nat) / (tenPow (-exponent).toNat : Nat)) := by
    simpa [tenPow_eq] using near
  rw [floatOfDecimal, if_neg positive, if_neg (by omega), if_neg (by omega)]
  apply floatOfRatio_eq
  have above : 0 < tenPow (-exponent).toNat := Nat.pow_pos (by decide)
  rw [bitsOfRatio_eq float above near, bits]

theorem exponent_of_zero (h : ofFloat x = .finite negative 0 e) : e = leastExponent := by
  simp only [ofFloat] at h
  split at h
  case isTrue =>
    split at h
    all_goals cases h
  case isFalse =>
    split at h
    case isTrue => exact (finite.inj h).right.right.symm
    case isFalse =>
      have ⟨_, zero, _⟩ := finite.inj h
      rw [twoPow_eq] at zero
      omega

theorem floatOfDecimal_zero (h : ofFloat x = .finite negative 0 e) (exponent : Int) :
    floatOfDecimal negative 0 exponent = x := by
  have ⟨bits, _⟩ := toBits_of_finite h
  rw [exponent_of_zero h] at bits
  rw [floatOfDecimal, if_pos rfl]
  apply floatOfRatio_eq
  simpa [bitsOfRatio] using bits

-- Of the bits that stand for no number a float has the canonical ones.
theorem eq_nan (h : ofFloat x = .nan) : x = 0 / 0 := by
  have canonical := x.toModel.valid.eq_packedNaN
  have nan : (0 / 0 : Float).toBits = 0x7ff8000000000000 := by decide +kernel
  rw [← Float.toBits_inj, nan]
  simp only [ofFloat] at h
  split at h
  case isFalse =>
    split at h
    all_goals cases h
  case isTrue exponent =>
    split at h
    case isTrue => cases h
    case isFalse fraction =>
      simp only [twoPow_eq] at exponent fraction
      have bits : x.toBits.toBitVec = _ := canonical ?ones ?nonzero
      case ones =>
        refine BitVec.eq_of_toNat_eq ?_
        change x.toBits.toNat >>> 52 % 2 ^ 11 = 2047
        rwa [Nat.shiftRight_eq_div_pow]
      case nonzero =>
        intro zero
        have zero : x.toBits.toNat >>> 0 % 2 ^ 52 = 0 := congrArg BitVec.toNat zero
        exact fraction zero
      apply UInt64.toBitVec_inj.mp
      rw [bits]
      decide

theorem eq_infinity (h : ofFloat x = .infinite negative) : x = if negative then -1 / 0 else 1 / 0 := by
  have above : (1 / 0 : Float).toBits = 0x7ff0000000000000 := by decide +kernel
  have below : (-1 / 0 : Float).toBits = 0xfff0000000000000 := by decide +kernel
  have small := x.toBits.toNat_lt
  rw [← Float.toBits_inj]
  simp only [ofFloat, twoPow_eq] at h
  split at h
  case isFalse =>
    split at h
    all_goals cases h
  case isTrue =>
    split at h
    case isFalse => cases h
    case isTrue =>
      cases h
      split
      case isTrue sign =>
        rw [below]
        refine UInt64.toNat_inj.mp (Eq.trans ?_ (by decide : 2047 * 2 ^ 52 + 2 ^ 63 = _))
        simp only [decide_eq_true_eq] at sign
        omega
      case isFalse sign =>
        rw [above]
        refine UInt64.toNat_inj.mp (Eq.trans ?_ (by decide : 2047 * 2 ^ 52 = _))
        simp only [decide_eq_true_eq] at sign
        omega

end SecretSync.Binary64
