import SecretSync.Proofs.Result
import SecretSync.Settings

/-!
Settings whose times are durations, as those of all settings are that are read from the environment.
-/

namespace SecretSync

-- Whole seconds.
instance : Timeline Int where
  seconds := Int.ofNat
  decidableLT := inferInstance
  decidableLE := inferInstance

namespace Settings

-- The settings without any variable, in whole seconds.
def inSeconds : Settings Int where
  testMode := default.testMode
  localstackUrl := default.localstackUrl
  awsRegion := default.awsRegion
  vaultAddress := default.vaultAddress
  vaultToken := default.vaultToken
  vaultMount := default.vaultMount
  pulumiEndpoint := default.pulumiEndpoint
  pulumiToken := default.pulumiToken
  cacheTtl := .lasting 60
  requeueAfter := .lasting 20
  errorRequeueAfter := .lasting 300
  maxWorkers := default.maxWorkers
  metricsPort := default.metricsPort

-- The times to the next reconciliation, after a success and after a failure, are durations.
structure Lasts {τ : Type} (settings : Settings τ) (soon late : τ) : Prop where
  success : settings.requeueAfter = .lasting soon
  failure : settings.errorRequeueAfter = .lasting late

theorem duration_lasts {environment : Environment} {name : Text} {fallback : Float} {span : Span Float}
    (h : duration environment name (.lasting fallback) = .ok span) : ∃ x, span = .lasting x := by
  simp only [duration] at h
  split at h
  case h_1 =>
    cases h
    exact ⟨fallback, rfl⟩
  case h_2 =>
    simp only [Result.bind_eq_ok_iff, Result.pure_eq_ok_iff] at h
    obtain ⟨x, _, eq⟩ := h
    exact ⟨x, eq.symm⟩

-- Whatever is set in the environment for a time is a duration.
theorem exists_lasts {environment : Environment} {settings : Settings Float}
    (h : ofEnvironment environment = .ok settings) : ∃ soon late, settings.Lasts soon late := by
  simp only [ofEnvironment, Result.bind_eq_ok_iff] at h
  obtain ⟨_, _, _, requeues, _, retries, made⟩ := h
  obtain ⟨soon, success⟩ := duration_lasts requeues
  obtain ⟨late, failure⟩ := duration_lasts retries
  refine ⟨soon, late, ?_⟩
  -- The numbers that are read after the times, or left out, do not matter.
  split at made
  all_goals
    obtain ⟨_, _, made⟩ := Result.bind_eq_ok_iff.mp made
    split at made
    all_goals
      obtain ⟨_, _, made⟩ := Result.bind_eq_ok_iff.mp made
      cases made
      exact ⟨success, failure⟩

end Settings

end SecretSync
