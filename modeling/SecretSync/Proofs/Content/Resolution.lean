import SecretSync.Content.Resolution
import SecretSync.Proofs.Cache
import SecretSync.Proofs.Content.Entries
import SecretSync.Proofs.Remote.Steady

/-!
Resolving sources when every lookup has one outcome. The cache then changes nothing, and what a source
gives is put together from what its fields give, each on its own. Main statements:
`Field.resolve_computes`, `Source.resolve_computes`, `Source.whole_isUnion`, `Source.whole_served`.
-/

namespace SecretSync

open Content (IsNamed IsUnion)

-- What a source names beside its lookups is a text or left out.
structure Source.IsPlain (source : Source) : Prop where
  token : source.pulumiToken.IsTextOrNull
  profiles : ∀ field ∈ source.fields, field.profile.IsTextOrNull

-- So are the keys of its entries.
structure Source.IsTextual (source : Source) : Prop extends source.IsPlain where
  keys : ∀ field ∈ source.fields, field.key.IsTextOrNull

theorem Source.IsPlain.isTextual {source : Source} (plain : source.IsPlain) {field : Field}
    (mem : field ∈ source.fields) {l : Lookup} (h : Lookup.ofField source field = some l) : l.IsTextual := by
  simp only [Lookup.ofField] at h
  split at h
  all_goals cases h
  case h_4 => exact plain.profiles field mem
  case h_5 => exact plain.token
  all_goals exact trivial

-- The entries of a field, if `answer` is what lookups give.
def Source.contentOf (answer : Lookup → Result Fetched) (source : Source) (field : Field) :
    Result Content :=
  match Lookup.ofField source field with
  | none => field.entries (.text field.value) false
  | some l => do field.entriesOf source.backend (← answer l)

-- The fields that are resolved: none of a source of a kind that is not supported.
def Source.supported (source : Source) : List Field :=
  match source.backend with
  | .unknown => []
  | _ => source.fields

theorem Source.mem_of_mem_supported {source : Source} {field : Field} (mem : field ∈ source.supported) :
    field ∈ source.fields := by
  simp only [supported] at mem
  split at mem
  case h_1 => cases mem
  case h_2 => exact mem

-- What the fields of a source give that do not fail, in the order of the fields.
def Source.parts (give : Source → Field → Result Content) (source : Source) : List Content :=
  source.supported.filterMap fun field => (give source field).toOption

-- The content of a source, if `answer` is what lookups give.
def Source.whole (answer : Lookup → Result Fetched) (source : Source) : Result Content :=
  Content.sorted ((source.parts (contentOf answer)).foldl Content.merge [])

-- It is always there for a textual source.
def Source.content (answer : Lookup → Result Fetched) (source : Source) : Content :=
  (source.whole answer).toOption.getD []

section

variable {answer : Lookup → Result Fetched} {source : Source}

theorem Field.named_entriesOf {field : Field} {backend : Backend} {fetched : Fetched} {content : Content}
    (textual : field.key.IsTextOrNull) (h : field.entriesOf backend fetched = .ok content) :
    IsNamed content := by
  simp only [entriesOf, outputEntries] at h
  split at h
  case h_4 =>
    split at h
    case h_1 => exact named_entries textual h
    case h_2 =>
      cases h
      exact .nil
  all_goals
    simp only [Result.bind_eq_ok_iff] at h
    obtain ⟨_, _, made⟩ := h
    exact named_entries textual made

theorem Source.named_contentOf {field : Field} {content : Content} (textual : field.key.IsTextOrNull)
    (h : source.contentOf answer field = .ok content) : IsNamed content := by
  simp only [contentOf] at h
  split at h
  case h_1 => exact Field.named_entries textual h
  case h_2 =>
    simp only [Result.bind_eq_ok_iff] at h
    obtain ⟨_, _, made⟩ := h
    exact Field.named_entriesOf textual made

theorem Source.named_parts (textual : source.IsTextual) :
    ∀ part ∈ source.parts (contentOf answer), IsNamed part := by
  intro part mem
  have ⟨field, mem, made⟩ := List.mem_filterMap.mp mem
  exact named_contentOf (textual.keys field (mem_of_mem_supported mem)) (Result.toOption_eq_some_iff.mp made)

-- What a source gives is the union of what its fields give.
variable (answer) in
theorem Source.whole_isUnion (textual : source.IsTextual) :
    source.whole answer = .ok (source.content answer) ∧
      IsUnion (source.parts (contentOf answer)) (source.content answer) := by
  have named : ∀ part ∈ source.parts (contentOf answer), IsNamed part := named_parts textual
  have ⟨found, eq, union⟩ := Content.exists_isUnion named
  have same : source.content answer = found := by
    simp only [content, whole, eq]
    rfl
  exact same ▸ ⟨eq, union⟩

end

section

variable {τ σ ς : Type} (look : Lookup → Op τ σ Fetched) (source : Source)

-- Resolving with lookups that are made by `look`.
def Field.resolveWith (field : Field) : Op τ σ Content :=
  match Lookup.ofField source field with
  | none => Op.ofResult (field.entries (.text field.value) false)
  | some l => do
    let fetched ← look l
    Op.ofResult (field.entriesOf source.backend fetched)

namespace Source

def resolveFieldsWith : List Field → Content → Op τ σ Content
  | [], found => pure found
  | field :: rest, found => do
    match ← Op.attempt (field.resolveWith look source) with
    | .ok entries => resolveFieldsWith rest (Content.merge found entries)
    | .error _ => resolveFieldsWith rest found

def resolveWith : Op τ σ Content := do
  let found ← resolveFieldsWith look source source.supported []
  Op.ofResult (Content.sorted found)

end Source

variable [Timeline τ] (settings : Settings τ) (ttl : Span τ)

theorem Source.resolveFields_eq (fields : List Field) (found : Content) :
    source.resolveFields settings ttl fields found =
      source.resolveFieldsWith (Lookup.resolve settings ttl) fields found := by
  induction fields generalizing found
  case nil => rfl
  case cons field rest hi =>
    apply bind_congr
    intro r
    cases r
    all_goals exact hi _

theorem Source.resolve_supported :
    source.resolve settings ttl = (do
      let found ← source.resolveFields settings ttl source.supported []
      Op.ofResult (Content.sorted found)) := by
  simp only [resolve, supported]
  cases source.backend
  all_goals rfl

-- The lookups of a source go through the cache.
theorem Source.resolve_eq :
    source.resolve settings ttl = source.resolveWith (Lookup.resolve settings ttl) := by
  rw [resolve_supported, resolveWith, resolveFields_eq]

variable {look source} {responder : Responder τ ς} {I : σ → ς → Prop} {answer : Lookup → Result Fetched}

omit [Timeline τ]

theorem Field.resolveWith_computes {field : Field}
    (looks : ∀ l, Lookup.ofField source field = some l → (look l).Computes responder I (answer l)) :
    (field.resolveWith look source).Computes responder I (source.contentOf answer field) := by
  simp only [resolveWith, Source.contentOf]
  cases asked : Lookup.ofField source field
  case none => exact Op.computes_ofResult _
  case some l => exact (looks l asked).bind fun _ _ => Op.computes_ofResult _

theorem Source.resolveFieldsWith_computes {fields : List Field} (found : Content)
    (looks : ∀ field ∈ fields, ∀ l, Lookup.ofField source field = some l →
      (look l).Computes responder I (answer l)) :
    (source.resolveFieldsWith look fields found).Computes responder I
      (.ok ((fields.filterMap fun field => (source.contentOf answer field).toOption).foldl Content.merge
        found)) := by
  induction fields generalizing found
  case nil => exact Op.computes_pure found
  case cons field rest hi =>
    have ⟨first, others⟩ := List.forall_mem_cons.mp looks
    intro s m allowed
    apply ((Field.resolveWith_computes first).attempt s m allowed).bind
    case ok =>
      intro r eq s m allowed
      cases eq
      rw [List.filterMap_cons]
      cases source.contentOf answer field
      case error => exact hi found others s m allowed
      case ok entries => exact hi (Content.merge found entries) others s m allowed
    case error => nofun

theorem Source.resolveWith_computes
    (looks : ∀ field ∈ source.fields, ∀ l, Lookup.ofField source field = some l →
      (look l).Computes responder I (answer l)) :
    (source.resolveWith look).Computes responder I (source.whole answer) := by
  have found := resolveFieldsWith_computes [] fun field mem => looks field (mem_of_mem_supported mem)
  exact found.bind fun _ _ => Op.computes_ofResult _

end

section

variable {τ ς : Type} [Timeline τ]

namespace Lookup

-- What a lookup gives through a cache.
def served (ttl : Span τ) (outcome : Lookup → Result Fetched) (l : Lookup) : Result Fetched :=
  if ttl.isPositive then
    match l.cacheKey? with
    | none => .error .wrongKind
    | some _ => Cached.stored ttl (outcome l)
  else .error .nonPositiveTtl

-- A cached value is what all lookups give that have its key.
def IsServed (answer : Lookup → Result Fetched) (key : CacheKey) (value : Fetched) : Prop :=
  ∀ l k, IsTextual l → l.cacheKey? = some k → (key == k) = true → answer l = .ok value

-- The sessions that come about when lookups have these outcomes.
def Sessions (ttl : Span τ) (outcome : Lookup → Result Fetched) (fits : Connections → Prop)
    (calm : ς → Prop) : Session τ → ς → Prop :=
  Cached.Trusted (IsServed (served ttl outcome)) fits calm

variable {settings : Settings τ} {responder : Responder τ ς} {fits : Connections → Prop}
  {calm : ς → Prop} {outcome : Lookup → Result Fetched} {ttl : Span τ}
  (steady : Steady settings responder fits calm outcome)
include steady

theorem resolve_computes {l : Lookup} (textual : l.IsTextual) :
    (l.resolve settings ttl).Computes responder (Sessions ttl outcome fits calm) (served ttl outcome l) := by
  intro s m trusted
  simp only [resolve, served]
  cases positive : ttl.isPositive
  case false =>
    simp only [Cached.getOrFetch, positive]
    exact Op.computes_throw _ s m trusted
  case true =>
    cases keyed : l.cacheKey?
    case none =>
      simp only [Cached.getOrFetch, positive]
      exact Op.computes_throw _ s m trusted
    case some key =>
      have served_eq {l' : Lookup} {k : CacheKey} (textual' : l'.IsTextual) (keyed' : l'.cacheKey? = some k)
          (same : (key == k) = true) : served ttl outcome l' = Cached.stored ttl (outcome l) := by
        have request := sameRequest_of_cacheKey settings textual textual' keyed keyed' same
        simp only [served, positive, keyed', steady.outcome_eq request trusted.calm]
        rfl
      have nonempty := isNonempty_of_cacheKey keyed
      apply Cached.getOrFetch_computes steady.now (steady.fetch l) nonempty positive _ s m trusted
      intro k value known
      constructor
      case mp =>
        intro kept
        rw [← served_eq textual keyed BEq.rfl]
        exact kept l key textual keyed known
      case mpr =>
        intro gives l' k' textual' keyed' same
        rw [served_eq textual' keyed' (BEq.trans (BEq.symm known) same)]
        exact gives

-- A time to live changes nothing but the fault of a lookup that has no key.
theorem toOption_served {d : τ} (positive : Timeline.zero < d) {l : Lookup} (textual : l.IsTextual) {m : ς}
    (quiet : calm m) : (served (.lasting d) outcome l).toOption = (outcome l).toOption := by
  simp only [served, (Span.isPositive_lasting d).mpr positive, if_true]
  cases keyed : l.cacheKey?
  case none =>
    have ⟨fault, eq⟩ := exists_fetch_eq_throw settings textual keyed
    have failed : outcome l = .error fault :=
      (steady.fetch l).unique (eq ▸ Op.computes_throw fault) ⟨steady.fresh, quiet⟩
    rw [failed]
    rfl
  case some =>
    cases outcome l
    all_goals rfl

end Lookup

variable {settings : Settings τ} {responder : Responder τ ς} {fits : Connections → Prop}
  {calm : ς → Prop} {outcome : Lookup → Result Fetched} (ttl : Span τ) {source : Source}
  (steady : Steady settings responder fits calm outcome) (plain : source.IsPlain)
include steady plain

theorem Field.resolve_computes {field : Field} (mem : field ∈ source.fields) :
    (field.resolve settings ttl source).Computes responder (Lookup.Sessions ttl outcome fits calm)
      (source.contentOf (Lookup.served ttl outcome) field) :=
  resolveWith_computes fun _ asked => Lookup.resolve_computes steady (plain.isTextual mem asked)

theorem Source.resolve_computes :
    (source.resolve settings ttl).Computes responder (Lookup.Sessions ttl outcome fits calm)
      (source.whole (Lookup.served ttl outcome)) := by
  rw [resolve_eq]
  exact resolveWith_computes fun _ mem _ asked => Lookup.resolve_computes steady (plain.isTextual mem asked)

theorem Source.whole_served {d : τ} (positive : Timeline.zero < d) {m : ς} (quiet : calm m) :
    source.whole (Lookup.served (.lasting d) outcome) = source.whole outcome := by
  have same :
      source.parts (contentOf (Lookup.served (.lasting d) outcome)) = source.parts (contentOf outcome) := by
    apply List.filterMap_congr
    intro field mem
    simp only [contentOf]
    cases asked : Lookup.ofField source field
    case none => rfl
    case some l =>
      have textual := plain.isTextual (mem_of_mem_supported mem) asked
      exact Result.toOption_bind_congr (Lookup.toOption_served steady positive textual quiet)
  simp only [whole, same]

end

end SecretSync
