import SecretSync.Proofs.Cache
import SecretSync.Proofs.Cache.Contents

/-!
A cache while no time passes. What it serves it goes on serving, and anything else is fetched, so each key
has one answer, whoever has filled the cache. Main statement: `Cached.getOrFetch_computesAtOnce`.
-/

namespace SecretSync.Cached

open Table (Distinct)

variable {τ ν γ ς : Type} [Timeline τ] {responder : Responder τ ς} {P : CacheKey → ν → Prop}
  {first : Cache τ ν} {time : τ} {fits : γ → Prop} {key : CacheKey} {ttl : Span τ} {fetch : Op τ γ ν}
  {r : Result ν}

-- What is served under a key fits `P`, and what was served in the beginning still is.
structure AtOnce (P : CacheKey → ν → Prop) (first : Cache τ ν) (time : τ) (fits : γ → Prop)
    (s : Cached τ ν γ) : Prop where
  distinct : Distinct s.cache
  served   : ∀ k value, s.cache.lookup k time = some value → P k value
  kept     : ∀ k value, first.lookup k time = some value → s.cache.lookup k time = some value
  rest     : fits s.rest

-- What a key gives: what was served in the beginning, or else what is fetched.
def answerAt (first : Cache τ ν) (time : τ) (ttl : Span τ) (r : Result ν) (key : CacheKey) : Result ν :=
  match first.lookup key time with
  | some value => .ok value
  | none => stored ttl r

theorem answerAt_congr {other : CacheKey} (same : (key == other) = true) :
    answerAt first time ttl r key = answerAt first time ttl r other := by
  rw [answerAt, Cache.lookup_congr same, ← answerAt]

variable (stopped : ∀ m, (responder .now m).1 = time)
include stopped

theorem lookup_comesAtOnce (key : CacheKey) {s : Cached τ ν γ} {m : ς} (h : AtOnce P first time fits s) :
    (lookup key).Comes responder s m (.ok (s.cache.lookup key time)) fun s' _ => AtOnce P first time fits s' := by
  simp only [lookup]
  apply Op.Comes.get_bind
  cases known : s.cache.has key
  case false =>
    have missing : s.cache.lookup key time = none := by
      rw [Cache.lookup, Option.not_isSome_iff_eq_none.mp (Bool.eq_false_iff.mp known)]
    rw [missing]
    exact Op.Comes.pure h
  case true =>
    have left : AtOnce P first time fits { s with cache := s.cache.afterLookup key time } := by
      have same (k : CacheKey) : (s.cache.afterLookup key time).lookup k time = s.cache.lookup k time :=
        Cache.lookup_afterLookup_self key k h.distinct
      exact ⟨Cache.distinct_afterLookup key time h.distinct, fun k => same k ▸ h.served k,
        fun k => same k ▸ h.kept k, h.rest⟩
    apply Op.Comes.now_bind
    rw [stopped]
    exact Op.Comes.get_bind (Op.Comes.modify_bind (Op.Comes.pure left))

theorem refresh_computesAtOnce (fetched : fetch.Computes responder (fun p _ => fits p) r)
    (nonempty : key.isNonempty = true) (missing : first.lookup key time = none)
    (keeps : ∀ k value, stored ttl r = .ok value → (k == key) = true → P k value) :
    (refresh key ttl fetch).Computes responder (fun s _ => AtOnce P first time fits s) (stored ttl r) := by
  intro s m h
  apply (Op.Comes.within (fetched s.rest m h.rest)).bind
  case error =>
    intro fault failed
    subst failed
    refine ⟨rfl, fun s' m' ⟨p, eq, fits⟩ => ?_⟩
    subst eq
    exact ⟨h.distinct, h.served, h.kept, fits⟩
  case ok =>
    intro value gives s' m' ⟨p, eq, fits⟩
    subst eq
    apply Op.Comes.now_bind
    rw [stopped]
    apply Op.Comes.ofResult_bind
    case error =>
      intro fault unusable
      have failed : stored ttl r = .error fault := by
        rw [stored, gives, unusable]
        rfl
      exact ⟨failed, h.distinct, h.served, h.kept, fits⟩
    case ok =>
      intro d lasting
      have succeeded : stored ttl r = .ok value := by
        rw [stored, gives, lasting]
        rfl
      apply Op.Comes.modify_bind
      rw [if_pos nonempty, succeeded]
      apply Op.Comes.pure
      constructor
      case distinct => exact h.distinct.put _ _
      case served =>
        intro k v found
        rw [Cache.lookup_store] at found
        split at found
        case isTrue same =>
          split at found
          case isTrue =>
            cases found
            exact keeps k value succeeded (BEq.symm same)
          case isFalse => cases found
        case isFalse => exact h.served k v found
      case kept =>
        intro k v found
        rw [Cache.lookup_store]
        split
        case isTrue same =>
          rw [← Cache.lookup_congr same, missing] at found
          cases found
        case isFalse => exact h.kept k v found
      case rest => exact fits

theorem getOrFetch_computesAtOnce (fetched : fetch.Computes responder (fun p _ => fits p) r)
    (nonempty : key.isNonempty = true) (positive : ttl.isPositive = true)
    (keeps : ∀ k value, (k == key) = true → (P k value ↔ answerAt first time ttl r key = .ok value)) :
    (getOrFetch (some key) ttl fetch).Computes responder (fun s _ => AtOnce P first time fits s)
      (answerAt first time ttl r key) := by
  intro s m h
  simp only [getOrFetch, if_pos positive]
  apply (lookup_comesAtOnce stopped key h).bind
  case error =>
    intro _ failed
    cases failed
  case ok =>
    intro _ eq s' m' h'
    cases eq
    cases found : s.cache.lookup key time
    case some value =>
      rw [(keeps key value BEq.rfl).mp (h.served key value found)]
      exact Op.Comes.pure h'
    case none =>
      have missing : first.lookup key time = none := by
        cases begun : first.lookup key time
        case none => rfl
        case some value => cases found.symm.trans (h.kept key value begun)
      have answer : answerAt first time ttl r key = stored ttl r := by rw [answerAt, missing]
      rw [answer] at keeps ⊢
      exact refresh_computesAtOnce stopped fetched nonempty missing
        (fun k value gives same => (keeps k value same).mpr gives) s' m' h'

end SecretSync.Cached
