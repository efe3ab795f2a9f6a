import SecretSync.Fault
import SecretSync.Time.Timeline

/-!
Spans of time as they are set. What was set need not be a duration: a number can be too large to
reckon with. That shows only when the span is used.
-/

namespace SecretSync

inductive Span (τ : Type) where
  | lasting (duration : τ)
  -- No duration, with the fault of using it as one.
  | unusable (fault : Fault)

namespace Span

variable {τ : Type}

def duration : Span τ → Result τ
  | lasting d => .ok d
  | unusable fault => .error fault

-- Whether a span is longer than no time at all, as one is that is too long to be used.
def isPositive [Timeline τ] : Span τ → Bool
  | lasting d => decide (Timeline.zero < d)
  | unusable _ => true

variable (d : τ)

@[simp]
theorem duration_lasting : (lasting d).duration = .ok d := rfl

@[simp]
theorem isPositive_lasting [Timeline τ] : (lasting d).isPositive = true ↔ Timeline.zero < d := by
  simp [isPositive]

end Span

end SecretSync
