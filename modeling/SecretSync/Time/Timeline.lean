/-!
Points in time and durations, in seconds. The operator only adds, subtracts and compares them, so it
runs on floats and can be reasoned about on any numbers.
-/

namespace SecretSync

class Timeline (τ : Type) extends Add τ, Sub τ, LT τ, LE τ where
  seconds : Nat → τ
  decidableLT : DecidableLT τ
  decidableLE : DecidableLE τ

attribute [reducible, instance] Timeline.decidableLT Timeline.decidableLE

instance : Timeline Float where
  seconds := Float.ofNat
  decidableLT := inferInstance
  decidableLE := inferInstance

namespace Timeline

variable {τ : Type} [Timeline τ]

def zero : τ := seconds 0

def atLeastZero (d : τ) : τ := if zero < d then d else zero

def atMost (limit d : τ) : τ := if limit < d then limit else d

end Timeline

end SecretSync
