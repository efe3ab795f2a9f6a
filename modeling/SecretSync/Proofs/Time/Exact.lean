import Mathlib.Data.Real.Basic
import SecretSync.Proofs.Effect.Responder
import SecretSync.Proofs.Settings

/-!
Times that are reckoned with exactly, and clocks that are moved by waiting. Main statements: `number_atLeastZero` and
`number_atMost`.
-/

namespace SecretSync

-- Times that are real numbers, and add up as such.
class ExactTimeline (τ : Type) extends Timeline τ where
  number           : τ → ℝ
  number_injective : Function.Injective number
  number_add (a b : τ) : number (a + b) = number a + number b
  number_sub (a b : τ) : number (a - b) = number a - number b
  number_seconds (n : Nat) : number (Timeline.seconds n) = n
  number_lt_iff {a b : τ} : number a < number b ↔ a < b
  number_le_iff {a b : τ} : number a ≤ number b ↔ a ≤ b

noncomputable instance : ExactTimeline Int where
  number n := n
  number_injective := Int.cast_injective
  number_add := Int.cast_add
  number_sub := Int.cast_sub
  number_seconds := Int.cast_natCast
  number_lt_iff := Int.cast_lt
  number_le_iff := Int.cast_le

namespace ExactTimeline

variable {τ : Type} [ExactTimeline τ]

@[simp]
theorem number_zero : number (Timeline.zero : τ) = 0 := by
  rw [Timeline.zero, number_seconds, Nat.cast_zero]

theorem number_atLeastZero (d : τ) : number (Timeline.atLeastZero d) = max 0 (number d) := by
  rw [Timeline.atLeastZero]
  split
  case isTrue positive =>
    have above := number_lt_iff.mpr positive
    rw [number_zero] at above
    exact (max_eq_right above.le).symm
  case isFalse none =>
    have below := not_lt.mp fun above => none (number_lt_iff.mp above)
    rw [number_zero] at below ⊢
    exact (max_eq_left below).symm

theorem number_atMost (limit d : τ) : number (Timeline.atMost limit d) = min (number limit) (number d) := by
  rw [Timeline.atMost]
  split
  case isTrue above => exact (min_eq_left (number_lt_iff.mpr above).le).symm
  case isFalse none =>
    have below := not_lt.mp fun above => none (number_lt_iff.mp above)
    exact (min_eq_right below).symm

end ExactTimeline

-- The clock stands still while it is read, and is moved by a wait as far as that lasts. Any other call may take any
-- time, and may even set it.
structure Responder.Times {τ ς : Type} [Add τ] (responder : Responder τ ς) (clock : ς → τ) : Prop where
  now  : ∀ o, responder .now o = (clock o, o)
  wait : ∀ d o, clock (responder (.wait d) o).2 = clock o + d

end SecretSync
