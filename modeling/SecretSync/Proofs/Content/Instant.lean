import SecretSync.Proofs.Cache.Instant
import SecretSync.Proofs.Content.Precedence

/-!
Content that is put together while no time passes. What a lookup gives then depends on what the cache served in
the beginning, and not on what others have looked up since. Main statement:
`Content.assemble_computesAtOnce`.
-/

namespace SecretSync

variable {τ ς : Type} [Timeline τ] {settings : Settings τ} {responder : Responder τ ς}
  {fits : Connections → Prop} {outcome : Lookup → Result Fetched} {ttl : Span τ}
  {first : Cache τ Fetched} {time : τ}

namespace Lookup

-- What a lookup gives at a time at which the cache is `first`.
def givenAt (first : Cache τ Fetched) (time : τ) (ttl : Span τ) (outcome : Lookup → Result Fetched)
    (l : Lookup) : Result Fetched :=
  if ttl.isPositive then
    match l.cacheKey? with
    | none => .error .wrongKind
    | some key => Cached.answerAt first time ttl (outcome l) key
  else .error .nonPositiveTtl

-- A cached value is what all lookups give that have its key.
def IsGivenAt (first : Cache τ Fetched) (time : τ) (ttl : Span τ) (outcome : Lookup → Result Fetched)
    (key : CacheKey) (value : Fetched) : Prop :=
  ∀ l k, IsTextual l → l.cacheKey? = some k → (key == k) = true →
    Cached.answerAt first time ttl (outcome l) k = .ok value

-- The sessions that come about at that time.
def SessionsAt (first : Cache τ Fetched) (time : τ) (ttl : Span τ) (outcome : Lookup → Result Fetched)
    (fits : Connections → Prop) : Session τ → Prop :=
  Cached.AtOnce (IsGivenAt first time ttl outcome) first time fits

theorem sessionsAt_start {s : Session τ} (distinct : Table.Distinct s.cache) (connected : fits s.rest) :
    SessionsAt s.cache time ttl outcome fits s where
  distinct := distinct
  served k value found l other _ _ same := by
    rw [Cache.lookup_congr same] at found
    rw [Cached.answerAt, found]
  kept _ _ found := found
  rest := connected

variable (steady : Steady settings responder fits (fun _ => True) outcome)
  (stopped : ∀ m, (responder .now m).1 = time)
include steady stopped

theorem resolve_computesAtOnce {l : Lookup} (textual : l.IsTextual) :
    (l.resolve settings ttl).Computes responder (fun s _ => SessionsAt first time ttl outcome fits s)
      (givenAt first time ttl outcome l) := by
  intro s m allowed
  simp only [resolve, givenAt]
  cases positive : ttl.isPositive
  case false =>
    simp only [Cached.getOrFetch, positive]
    exact Op.computes_throw _ s m allowed
  case true =>
    cases keyed : l.cacheKey?
    case none =>
      simp only [Cached.getOrFetch, positive]
      exact Op.computes_throw _ s m allowed
    case some key =>
      have fetched : (l.fetch settings).Computes responder (fun p _ => fits p) (outcome l) := by
        simpa only [and_true] using steady.fetch l
      have nonempty := isNonempty_of_cacheKey keyed
      apply Cached.getOrFetch_computesAtOnce stopped fetched nonempty positive _ s m allowed
      intro k value same
      constructor
      case mp => exact fun gives => gives l key textual keyed same
      case mpr =>
        intro gives l' k' textual' keyed' same'
        have both := BEq.trans (BEq.symm same) same'
        have request := sameRequest_of_cacheKey settings textual textual' keyed keyed' both
        have asked : outcome l = outcome l' := steady.outcome_eq request (m := m) trivial
        rw [← Cached.answerAt_congr both, ← asked]
        exact gives

end Lookup

theorem Content.assemble_computesAtOnce (steady : Steady settings responder fits (fun _ => True) outcome)
    (stopped : ∀ m, (responder .now m).1 = time) {sources : List Source}
    (plain : ∀ source ∈ sources, source.IsPlain) :
    (assemble settings ttl sources).Computes responder
      (fun s _ => Lookup.SessionsAt first time ttl outcome fits s)
      (do sorted ((← sources.mapM (Source.whole (Lookup.givenAt first time ttl outcome))).foldl merge [])) := by
  apply assemble_computesEach
  case resolves =>
    intro source mem
    rw [Source.resolve_eq]
    exact Source.resolveWith_computes fun _ inside _ asked =>
      Lookup.resolve_computesAtOnce steady stopped ((plain source mem).isTextual inside asked)
  case apart => exact fun allowed => ⟨allowed.distinct, allowed.served, allowed.kept, steady.fresh⟩
  case back => exact fun allowed left => ⟨left.distinct, left.served, left.kept, allowed.rest⟩

end SecretSync
