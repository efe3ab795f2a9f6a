import Mathlib.Data.Rat.Floor
import SecretSync.Proofs.Number.Rounding

/-!
The fractions that floats are, and what is left of them without the digits behind the point. Main statement:
`Binary64.truncate?_eq`.
-/

namespace SecretSync

-- The whole part of a fraction, toward zero.
def towardZero (q : ℚ) : Int :=
  if 0 ≤ q then ⌊q⌋ else ⌈q⌉

theorem towardZero_intCast (n : Int) : towardZero n = n := by
  rw [towardZero, Int.floor_intCast, Int.ceil_intCast, ite_self]

theorem towardZero_neg {q : ℚ} (h : 0 ≤ q) : towardZero (-q) = -⌊q⌋ := by
  rw [towardZero, Int.ceil_neg]
  split
  case isFalse => rfl
  case isTrue nonneg =>
    have zero : q = 0 := le_antisymm (neg_nonneg.mp nonneg) h
    simp [zero]

namespace Binary64

-- The fraction that a finite value is.
def toRat? : Binary64 → Option ℚ
  | .finite negative mantissa exponent =>
    let magnitude : ℚ := mantissa * 2 ^ exponent
    some (if negative then -magnitude else magnitude)
  | _ => none

theorem floor_magnitude (m : Nat) (e : Int) :
    ⌊(m * 2 ^ e : ℚ)⌋ = (m * twoPow e.toNat / twoPow (-e).toNat : Nat) := by
  have scaled : (m * 2 ^ e : ℚ) = ((m * twoPow e.toNat : Nat) : ℚ) / ((twoPow (-e).toNat : Nat) : ℚ) := by
    rw [zpow_eq_div two_pos, twoPow_eq, twoPow_eq]
    push_cast
    exact (mul_div_assoc _ _ _).symm
  rw [scaled, Rat.floor_natCast_div_natCast]
  rfl

theorem truncate?_eq (b : Binary64) : b.truncate? = b.toRat?.map towardZero := by
  cases b
  case nan | infinite => rfl
  case finite negative m e =>
    have nonneg : (0 : ℚ) ≤ m * 2 ^ e := by positivity
    simp only [truncate?, toRat?, ← floor_magnitude, Option.map_some, Option.some.injEq]
    cases negative
    case true => exact (towardZero_neg nonneg).symm
    case false => exact (if_pos nonneg).symm

end Binary64
end SecretSync
