import SecretSync.Proofs.Cache.Sections
import SecretSync.Proofs.Content.Expansion
import SecretSync.Proofs.Content.Provenance

/-!
Remote values under accepted settings. Any number is accepted as the time for which values are kept, but a cache
gives nothing for a time that is not positive. Main statement: `Settings.resolve_of_accepted`.
-/

namespace SecretSync

-- The time for which values are to be kept: what the variable says that is set for it, or else a minute.
def Settings.Keeps (environment : Environment) (x : Float) : Prop :=
  match Table.get? (Text.ofString "RSECRET_CACHE_TTL") environment with
  | none => x = 60
  | some t => Numeral.float? t = some x

theorem Settings.keeps_of_accepted {environment : Environment} {settings : Settings Float}
    (accepted : ofEnvironment environment = .ok settings) :
    ∃ x, Keeps environment x ∧ settings.cacheTtl = .lasting x := by
  simp only [ofEnvironment, Result.bind_eq_ok_iff] at accepted
  obtain ⟨span, kept, _, _, _, _, made⟩ := accepted
  have eq : settings.cacheTtl = span := by
    -- The numbers that are read after the times, or left out, do not matter.
    split at made
    all_goals
      obtain ⟨_, _, made⟩ := Result.bind_eq_ok_iff.mp made
      split at made
      all_goals
        obtain ⟨_, _, made⟩ := Result.bind_eq_ok_iff.mp made
        cases made
        rfl
  rw [eq]
  cases set : Table.get? (Text.ofString "RSECRET_CACHE_TTL") environment
  case none =>
    rw [duration, set] at kept
    cases kept
    exact ⟨60, by rw [Keeps, set], rfl⟩
  case some t =>
    rw [duration, set] at kept
    simp only [Result.bind_eq_ok_iff, Result.ofOption_eq_ok_iff, Result.pure_eq_ok_iff] at kept
    obtain ⟨x, read, eq⟩ := kept
    exact ⟨x, by rwa [Keeps, set], eq.symm⟩

section

variable {τ κ γ ν : Type} [Timeline τ] {ttl : Span τ}

theorem Cached.getOrFetch_of_not_positive (h : ttl.isPositive = false) (key : Option CacheKey)
    (fetch : Op τ γ ν) : (getOrFetch key ttl fetch : Op τ (Cached τ ν γ) ν) = throw .nonPositiveTtl :=
  if_neg (by simp [h])

variable {api : Api κ} {settings : Settings τ} {d : τ}

-- Looking up leaves the connections as they are.
theorem Cached.lookup_rest {key : CacheKey} {s : Cached τ ν γ} {w : World τ κ} :
    (lookup key).Ensures api s w (fun _ s' _ => s'.rest = s.rest) fun _ _ _ => False := by
  simp only [lookup, Op.ensures_bind, Op.ensures_get]
  split
  case isTrue =>
    simp only [Op.ensures_bind, Op.ensures_now, Op.ensures_get, modifyCache, Op.ensures_modify, Op.ensures_pure]
    exact fun _ _ _ => trivial
  case isFalse => exact (Op.ensures_pure _).mpr rfl

-- For a positive time a call fails only if its fetch does.
theorem Cached.getOrFetch_faults {key : CacheKey} {fetch : Op τ γ ν} {s : Cached τ ν γ} {w : World τ κ}
    (positive : Timeline.zero < d) (nonempty : key.isNonempty = true) :
    (getOrFetch (some key) (.lasting d) fetch).Ensures api s w (fun _ _ _ => True)
      fun fault _ w' => ∃ v rest, fetch.Run api s.rest v (.error fault) rest w' := by
  simp only [getOrFetch, if_pos ((Span.isPositive_lasting d).mpr positive), Op.ensures_bind]
  apply (lookup_rest (w := w)).mono
  case hfail => exact fun _ _ _ => False.elim
  case hok =>
    intro found s₁ v kept
    cases found
    case some value => exact (Op.ensures_pure _).mpr trivial
    case none =>
      simp only [refresh, Op.ensures_bind, Op.ensures_within, if_pos nonempty]
      apply (Op.Ensures.of_run fetch s₁.rest v).mono
      case hfail => exact fun _ rest _ run => ⟨v, rest, kept ▸ run⟩
      case hok =>
        intro value p w₁ run
        apply Op.ensures_now.mpr
        intro time state _
        simp only [Span.duration_lasting, Op.ofResult_ok, modifyCache, Op.ensures_modify, Op.ensures_pure]

-- What comes of a lookup between `w` and `w'`.
inductive Lookup.Outcome (api : Api κ) (settings : Settings τ) (l : Lookup) (s : Session τ) (w w' : World τ κ) :
    Result Fetched → Prop
  | unknown (none : l.cacheKey? = none) : Outcome api settings l s w w' (.error .wrongKind)
  | failed {fault : Fault} {v : World τ κ} {rest : Connections}
      (run : (l.fetch settings).Run api s.rest v (.error fault) rest w') :
      Outcome api settings l s w w' (.error fault)
  | told {key : CacheKey} {value : Fetched} (keyed : l.cacheKey? = some key)
      (told : Cached.Told api (l.fetch settings) key s.cache value w w') :
      Outcome api settings l s w w' (.ok value)

theorem Lookup.outcome_of_run {l : Lookup} {s s' : Session τ} {w w' : World τ κ} {r : Result Fetched}
    (positive : Timeline.zero < d) (run : (l.resolve settings (.lasting d)).Run api s w r s' w') :
    l.Outcome api settings s w w' r := by
  rw [resolve] at run
  cases keyed : l.cacheKey?
  case none =>
    have fails : Cached.getOrFetch none (.lasting d) (l.fetch settings) = (throw .wrongKind : Op τ (Session τ) _) :=
      if_pos ((Span.isPositive_lasting d).mpr positive)
    rw [keyed, fails] at run
    obtain ⟨ended, _⟩ := Script.run_pure_iff.mp run
    cases ended
    exact .unknown keyed
  case some key =>
    have nonempty := isNonempty_of_cacheKey keyed
    rw [keyed] at run
    cases r
    case error fault =>
      obtain ⟨v, rest, failed⟩ := Cached.getOrFetch_faults positive nonempty _ _ _ run
      exact .failed failed
    case ok value =>
      have ensured := Cached.getOrFetch_ensures (fun known eq => Option.some.inj eq ▸ nonempty) _ _ _ run
      obtain ⟨known, eq, told, _⟩ := ensured
      cases eq
      exact .told keyed told

theorem Field.outcome_of_run {field : Field} {source : Source} {l : Lookup} {s s' : Session τ} {w w' : World τ κ}
    {r : Result Content} (positive : Timeline.zero < d) (asked : Lookup.ofField source field = some l)
    (run : (field.resolve settings (.lasting d) source).Run api s w r s' w') :
    ∃ looked, l.Outcome api settings s w w' looked ∧ r = looked >>= field.entriesOf source.backend := by
  simp only [resolve, asked, Op.Run, Op.script_bind, Script.run_bind_iff] at run
  obtain ⟨⟨looked, s₁⟩, w₁, first, rest⟩ := run
  refine ⟨looked, ?_⟩
  cases looked
  all_goals
    obtain ⟨ended, eq⟩ := Script.run_pure_iff.mp rest
    cases ended
    cases eq
    exact ⟨Lookup.outcome_of_run positive first, rfl⟩

theorem Field.resolve_of_not_positive {field : Field} {source : Source} {l : Lookup}
    (h : ttl.isPositive = false) (asked : Lookup.ofField source field = some l) :
    field.resolve settings ttl source = throw .nonPositiveTtl := by
  simp only [resolve, asked, Lookup.resolve, Cached.getOrFetch_of_not_positive h]
  rfl

-- A source whose fields are fetched from elsewhere.
def Source.IsRemote (source : Source) : Prop :=
  source.backend ≠ .plaintext ∧ source.backend ≠ .unknown

theorem Source.IsRemote.exists_lookup {source : Source} (remote : source.IsRemote) (field : Field) :
    ∃ l, Lookup.ofField source field = some l := by
  have ⟨plaintext, unknown⟩ := remote
  simp only [Lookup.ofField]
  cases kind : source.backend
  case plaintext => exact absurd kind plaintext
  case unknown => exact absurd kind unknown
  all_goals exact ⟨_, rfl⟩

theorem Source.resolve_of_not_positive {source : Source} (remote : source.IsRemote)
    (h : ttl.isPositive = false) : source.resolve settings ttl = pure [] := by
  have skipped (fields : List Field) : source.resolveFields settings ttl fields [] = pure [] := by
    induction fields
    case nil => rfl
    case cons field rest hi =>
      have ⟨l, asked⟩ := remote.exists_lookup field
      rw [resolveFields, Field.resolve_of_not_positive h asked, Op.attempt_throw, pure_bind, hi]
  rw [resolve_supported, skipped, pure_bind]
  rfl

end

-- Text of the backends whose values are single texts.
def Backend.GivesText : Backend → Prop
  | .ssm => True
  | .secretManager => True
  | .appConfig => True
  | _ => False

-- The key of a field is a text, and its entry is the whole of its value.
structure Field.IsKeyed (field : Field) (key : Text) : Prop where
  named    : field.key = .text key
  nonempty : key ≠ []
  whole    : field.isJson = false ∨ field.remotePath.isGiven = false

theorem Field.entriesOf_text {field : Field} {key t : Text} {backend : Backend} (single : backend.GivesText)
    (keyed : field.IsKeyed key) (scalar : t.isScalar = true) :
    field.entriesOf backend (.value (.text t)) = .ok [(.text key, .bytes (t.flatMap CodePoint.utf8))] := by
  have given : field.key.isGiven = true := by simp [keyed.named, Value.isGiven, keyed.nonempty]
  have whole : ¬(field.isJson && field.remotePath.isGiven) = true := by
    rcases keyed.whole with eq | eq
    all_goals simp [eq]
  have made : field.entries (.text t) false = .ok [(.text key, .bytes (t.flatMap CodePoint.utf8))] := by
    rw [entries, if_pos given, if_neg whole, Value.toBytes, Value.encodeText, Text.utf8?, if_pos scalar, keyed.named]
    rfl
  cases backend
  case ssm => exact made
  case secretManager => exact made
  case appConfig => exact made
  all_goals cases single

-- If settings are accepted whose time is positive, what becomes of a field that is fetched depends on what it is
-- told alone, and a text that it is told becomes its entry. If the time is not positive, no field that is fetched
-- makes an entry, and nothing is asked for one.
theorem Settings.resolve_of_accepted {environment : Environment} {settings : Settings Float}
    (accepted : ofEnvironment environment = .ok settings) :
    ∃ x, Keeps environment x ∧ settings.cacheTtl = .lasting x ∧
      (Timeline.zero < x → ∀ (source : Source) (field : Field) (l : Lookup), Lookup.ofField source field = some l →
        ∀ {κ : Type} (api : Api κ) (s s' : Session Float) (w w' : World Float κ) (r : Result Content),
          (field.resolve settings settings.cacheTtl source).Run api s w r s' w' →
            ∃ looked, l.Outcome api settings s w w' looked ∧
              r = (looked >>= field.entriesOf source.backend) ∧
              ∀ key t, source.backend.GivesText → field.IsKeyed key → looked = .ok (.value (.text t)) →
                t.isScalar = true → r = .ok [(.text key, .bytes (t.flatMap CodePoint.utf8))]) ∧
      (¬Timeline.zero < x → ∀ source : Source, source.IsRemote →
        source.resolve settings settings.cacheTtl = pure [] ∧
        ∀ field : Field, field.resolve settings settings.cacheTtl source = throw .nonPositiveTtl) := by
  have ⟨x, kept, lasting⟩ := keeps_of_accepted accepted
  refine ⟨x, kept, lasting, fun positive source field l asked κ api s s' w w' r run => ?_,
    fun notPositive source remote => ?_⟩
  · rw [lasting] at run
    have ⟨looked, outcome, eq⟩ := Field.outcome_of_run positive asked run
    refine ⟨looked, outcome, eq, fun key t single keyed told scalar => ?_⟩
    rw [eq, told]
    exact Field.entriesOf_text single keyed scalar
  · rw [lasting]
    have h : (Span.lasting x).isPositive = false := decide_eq_false notPositive
    refine ⟨Source.resolve_of_not_positive remote h, fun field => ?_⟩
    have ⟨l, asked⟩ := remote.exists_lookup field
    exact Field.resolve_of_not_positive h asked

def zeroTtl : Environment :=
  [("RSECRET_CACHE_TTL", "0")]

def parameterSource : Source :=
  ⟨.ssm, [Content.namedField "known" "a"], .null⟩

-- Zero is accepted, and the parameter "known" then never makes the entry "a".
theorem Settings.resolve_of_accepted_zero :
    ∃ settings, ofEnvironment zeroTtl = .ok settings ∧
      parameterSource.resolve settings settings.cacheTtl = pure [] := by
  have ⟨settings, accepted, notPositive⟩ :
      ∃ settings, ofEnvironment zeroTtl = .ok settings ∧ settings.cacheTtl.isPositive = false :=
    ⟨_, rfl, by decide⟩
  have ⟨x, _, lasting, _, dropped⟩ := resolve_of_accepted accepted
  rw [lasting] at notPositive
  have remote : parameterSource.IsRemote := ⟨by decide, by decide⟩
  exact ⟨settings, accepted, (dropped (of_decide_eq_false notPositive) _ remote).left⟩

end SecretSync
