import SecretSync.Proofs.Content.Precedence
import SecretSync.Proofs.Effect.Record

/-!
Where the values come from that entries are made of. Remote services may tell something else at every
call, so a cached value need not be what they would tell now. It was told, though, to a request that is
the same, and less than a time to live ago. Main statement: `Source.resolve_provenance`.
-/

namespace SecretSync

variable {τ κ : Type}

section

variable [Timeline τ] (api : Api κ) (settings : Settings τ) (d : τ)

-- Where a value comes from that answers a lookup between `w` and `w'`: from a request that is made then,
-- or from one that is the same and was finished before, less than `d` ago.
inductive Lookup.Provenance (l : Lookup) (value : Fetched) (w w' : World τ κ) : Prop
  | now {v : World τ κ} {time : τ} (gave : (l.fetch settings).Gave api value time v w')
      (after : w.Before v)
  | earlier {l' : Lookup} {v v' : World τ κ} {finished time : τ} {state : κ}
      (same : SameRequest settings l' l) (gave : (l'.fetch settings).Gave api value finished v v')
      (before : v'.Before w) (read : w' = w.next .now time state state)
      (past : w'.InOrder → finished ≤ time) (fresh : time < finished + d)

-- What is kept was fetched for a lookup with its key, and is kept for as long as it is to be served.
def Lookup.Kept (w : World τ κ) (key : CacheKey) (entry : CacheEntry τ Fetched) : Prop :=
  ∃ l k v v' time, IsTextual l ∧ l.cacheKey? = some k ∧ (key == k) = true ∧
    (l.fetch settings).Gave api entry.value time v v' ∧ v'.Before w ∧ entry.expires = time + d

def Session.IsTraced (s : Session τ) (w : World τ κ) : Prop :=
  ∀ entry ∈ s.cache, Lookup.Kept api settings d w entry.1 entry.2

variable {api settings d} {s s' : Session τ} {w w' : World τ κ}

theorem Session.IsTraced.later (traced : IsTraced api settings d s w) (before : w.Before w')
    (fewer : s'.cache ⊆ s.cache) : IsTraced api settings d s' w' := by
  intro entry mem
  have ⟨l, k, v, v', time, textual, keyed, same, gave, earlier, expires⟩ := traced entry (fewer mem)
  exact ⟨l, k, v, v', time, textual, keyed, same, gave, earlier.trans before, expires⟩

theorem Lookup.resolve_ensures {l : Lookup} (textual : l.IsTextual)
    (traced : s.IsTraced api settings d w) :
    (l.resolve settings (.lasting d)).Ensures api s w
      (fun value s' w' => s'.IsTraced api settings d w' ∧ l.Provenance api settings d value w w')
      fun _ s' w' => s'.IsTraced api settings d w' := by
  have nonempty (key : CacheKey) (keyed : l.cacheKey? = some key) : key.isNonempty = true :=
    isNonempty_of_cacheKey keyed
  apply ((Op.Ensures.of_run _ s w).and (Cached.getOrFetch_ensures nonempty)).mono
  case hfail => exact fun _ _ _ ⟨run, fewer⟩ => traced.later run.before fewer
  case hok =>
    intro value s' w' ⟨run, key, keyed, told, stored⟩
    constructor
    · intro entry mem
      rcases stored entry mem with mem | ⟨same, v, time, gave, eq⟩
      · exact traced.later run.before (fun _ => id) entry mem
      · exact ⟨l, key, v, w', time, textual, keyed, same, eq ▸ gave, .refl w', eq ▸ rfl⟩
    · cases told
      case fetched gave after => exact .now gave after
      case kept mem same eq fresh read =>
        subst eq read
        have ⟨l', k, v, v', finished, textual', keyed', same', gave, before, expires⟩ := traced _ mem
        have request := sameRequest_of_cacheKey settings textual' textual keyed' keyed
          (BEq.trans (BEq.symm same') same)
        apply Provenance.earlier request gave before rfl
        case past => exact fun inOrder => gave.le before inOrder
        case fresh => exact expires ▸ fresh

end

section

variable [Timeline τ] (api : Api κ) (settings : Settings τ) (d : τ) (source : Source)

-- What a field gives between `w` and `w'`.
inductive Field.Shaped (field : Field) (w w' : World τ κ) : Result Content → Prop
  | declared (none : Lookup.ofField source field = none) :
      Shaped field w w' (field.entries (.text field.value) false)
  | told {l : Lookup} {value : Fetched} (asked : Lookup.ofField source field = some l)
      (provenance : l.Provenance api settings d value w w') :
      Shaped field w w' (field.entriesOf source.backend value)
  | failed {l : Lookup} {fault : Fault} (asked : Lookup.ofField source field = some l) :
      Shaped field w w' (.error fault)

-- What fields give that are resolved one after the other.
inductive Source.Shaped :
    List Field → Session τ → World τ κ → List (Result Content) → Session τ → World τ κ → Prop
  | nil {s : Session τ} {w : World τ κ} : Shaped [] s w [] s w
  | cons {field : Field} {fields : List Field} {r : Result Content} {rs : List (Result Content)}
      {s s₁ s' : Session τ} {w w₁ w' : World τ κ}
      (run : (field.resolve settings (.lasting d) source).Run api s w r s₁ w₁)
      (first : field.Shaped api settings d source w w₁ r) (rest : Shaped fields s₁ w₁ rs s' w') :
      Shaped (field :: fields) s w (r :: rs) s' w'

-- What comes of it when those that fail are left out.
def Source.gathered (rs : List (Result Content)) (found : Content) : Content :=
  (rs.filterMap Except.toOption).foldl Content.merge found

variable {api settings d source} {s s' : Session τ} {w w' : World τ κ} (plain : source.IsPlain)
include plain

theorem Field.resolve_ensures {field : Field} (mem : field ∈ source.fields)
    (traced : s.IsTraced api settings d w) :
    (Op.attempt (field.resolve settings (.lasting d) source)).Ensures api s w
      (fun r s' w' => s'.IsTraced api settings d w' ∧ field.Shaped api settings d source w w' r)
      fun _ _ _ => False := by
  simp only [resolve]
  split
  case h_1 none => exact (Op.ensures_attempt_ofResult _).mpr ⟨traced, .declared none⟩
  case h_2 l asked =>
    apply Op.ensures_attempt_bind_ofResult.mpr
    apply (Lookup.resolve_ensures (plain.isTextual mem asked) traced).mono
    case hok => exact fun _ _ _ told => ⟨told.left, .told asked told.right⟩
    case hfail => exact fun _ _ _ traced => ⟨traced, .failed asked⟩

theorem Source.resolveFields_ensures {fields : List Field} (within : ∀ field ∈ fields, field ∈ source.fields)
    (found : Content) (traced : s.IsTraced api settings d w) :
    (source.resolveFields settings (.lasting d) fields found).Ensures api s w
      (fun content s' w' => s'.IsTraced api settings d w' ∧
        ∃ rs, source.Shaped api settings d fields s w rs s' w' ∧ content = gathered rs found)
      fun _ _ _ => False := by
  induction fields generalizing found s w
  case nil => exact (Op.ensures_pure _).mpr ⟨traced, [], .nil, rfl⟩
  case cons field rest hi =>
    have ⟨mem, others⟩ := List.forall_mem_cons.mp within
    apply (Field.resolve_ensures plain mem traced).attempt_run.bind
    intro r s₁ w₁ ⟨run, traced, first⟩
    cases r
    all_goals
      apply (hi others _ traced).mono
      case hok => exact fun _ _ _ ⟨traced, rs, rest, eq⟩ => ⟨traced, _ :: rs, .cons run first rest, eq⟩
      case hfail => exact fun _ _ _ => id

theorem Source.resolve_ensures (traced : s.IsTraced api settings d w) :
    (Op.attempt (source.resolve settings (.lasting d))).Ensures api s w
      (fun r s' w' => s'.IsTraced api settings d w' ∧
        ∃ rs, source.Shaped api settings d source.supported s w rs s' w' ∧
          r = Content.sorted (gathered rs []))
      fun _ _ _ => False := by
  rw [resolve_supported]
  apply Op.ensures_attempt_bind_ofResult.mpr
  apply (resolveFields_ensures plain (fun _ => mem_of_mem_supported) [] traced).mono
  case hok => exact fun _ _ _ ⟨traced, rs, shaped, eq⟩ => ⟨traced, rs, shaped, congrArg _ eq⟩
  case hfail => exact fun _ _ _ => False.elim

end

namespace Session

variable [Timeline τ]

section

variable (api : Api κ) (settings : Settings τ) (d : τ)

-- The sessions and worlds that come about when sources are resolved one after the other, from an empty
-- cache on. Between two of them time passes, and entries may be dropped.
inductive Reached : Session τ → World τ κ → Prop
  | start {s : Session τ} {w : World τ κ} (empty : s.cache = []) : Reached s w
  | resolve {s s' : Session τ} {w w' : World τ κ} {source : Source} {r : Result Content}
      (reached : Reached s w) (plain : source.IsPlain)
      (run : (source.resolve settings (.lasting d)).Run api s w r s' w') : Reached s' w'
  | idle {s s' : Session τ} {w w' : World τ κ} (reached : Reached s w) (fewer : s'.cache ⊆ s.cache)
      (later : w.Before w') : Reached s' w'

variable {api settings d} {s : Session τ} {w : World τ κ}

theorem Reached.isTraced (h : Reached api settings d s w) : IsTraced api settings d s w := by
  induction h
  case start empty => simp [IsTraced, empty]
  case resolve plain run traced => exact (Source.resolve_ensures plain traced _ _ _ run.attempt).left
  case idle fewer later traced => exact traced.later later fewer

end

variable {ς : Type}

-- The same, if a responder answers all calls. Connections are those that can be.
inductive Answered (responder : Responder τ ς) (settings : Settings τ) (d : τ) (fits : Connections → Prop)
    (calm : ς → Prop) : Session τ → ς → Prop
  | start {s : Session τ} {m : ς} (empty : s.cache = []) (connected : fits s.rest) (quiet : calm m) :
      Answered responder settings d fits calm s m
  | resolve {s s' : Session τ} {m m' : ς} {source : Source} {r : Result Content}
      (reached : Answered responder settings d fits calm s m) (plain : source.IsPlain)
      (answered : (source.resolve settings (.lasting d)).answered responder s m = ((r, s'), m')) :
      Answered responder settings d fits calm s' m'
  | idle {s s' : Session τ} {m m' : ς} (reached : Answered responder settings d fits calm s m)
      (fewer : s'.cache ⊆ s.cache) (connected : fits s'.rest) (quiet : calm m') :
      Answered responder settings d fits calm s' m'

variable {responder : Responder τ ς} {settings : Settings τ} {d : τ} {fits : Connections → Prop}
  {calm : ς → Prop} {outcome : Lookup → Result Fetched} {s : Session τ} {m : ς}

theorem Answered.sessions (steady : Steady settings responder fits calm outcome)
    (h : Answered responder settings d fits calm s m) :
    Lookup.Sessions (.lasting d) outcome fits calm s m := by
  induction h
  case start empty connected quiet => exact ⟨by simp [empty], connected, quiet⟩
  case resolve plain answered trusted =>
    have ⟨_, _, eq, left⟩ := Source.resolve_computes (.lasting d) steady plain _ _ trusted
    cases answered.symm.trans eq
    exact left
  case idle fewer connected quiet trusted =>
    exact ⟨fun entry mem => trusted.cache entry (fewer mem), connected, quiet⟩

end Session

-- Whatever is served was told to a request that is the same, and if what is told does not change, the
-- cache makes no difference.
theorem Source.resolve_provenance [Timeline τ] (settings : Settings τ) {d : τ}
    (positive : Timeline.zero < d) {source : Source} (plain : source.IsPlain) :
    (∀ (κ : Type) (api : Api κ) (s s' : Session τ) (w w' : World τ κ) (r : Result Content),
      s.Reached api settings d w → (source.resolve settings (.lasting d)).Run api s w r s' w' →
      ∃ rs, source.Shaped api settings d source.supported s w rs s' w' ∧
        r = Content.sorted (gathered rs [])) ∧
    ∀ (ς : Type) (responder : Responder τ ς) (fits : Connections → Prop) (calm : ς → Prop)
      (outcome : Lookup → Result Fetched) (s : Session τ) (c : Connections) (m m' : ς),
      Steady settings responder fits calm outcome → s.Answered responder settings d fits calm m →
      fits c → calm m' →
      (source.resolve settings (.lasting d)).result responder s m =
        (source.resolveWith (Lookup.fetch settings)).result responder c m' := by
  constructor
  case left =>
    intro κ api s s' w w' r reached run
    exact (resolve_ensures plain reached.isTraced _ _ _ run.attempt).right
  case right =>
    intro ς responder fits calm outcome s c m m' steady answered fit quiet
    have cached := resolve_computes (.lasting d) steady plain s m (answered.sessions steady)
    have plainly : (source.resolveWith (Lookup.fetch settings)).Computes responder
        (fun c m => fits c ∧ calm m) (source.whole outcome) :=
      resolveWith_computes fun _ _ l _ => steady.fetch l
    rw [cached.result_eq, (plainly c m' ⟨fit, quiet⟩).result_eq, whole_served steady plain positive quiet]

-- A parameter store whose parameters become new, on a clock that is half a minute on whenever it is read.
def renewing : Responder Int Int
  | .cluster _ => fun m => (.error (.refused 404), m)
  | .remote .awsSession => fun m => (.ok (), m)
  | .remote (.awsClient _ _ _) => fun m => (.ok (), m)
  | .remote (.parameter _) => fun m =>
    (.ok (.object [("Parameter", .object [("Value", if m = 0 then "old" else "new")])]), m)
  | .remote _ => fun m => (.error (.remote "no such service"), m)
  | .now => fun m => (m, m + 30)
  | .wait _ => fun m => ((), m)

def oneField : Source :=
  ⟨.ssm, [Content.namedField "known" "a"], .null⟩

def oldContent : Content :=
  [(.text "a", .bytes [111, 108, 100])]

-- Half a minute later the parameter is still the old one.
theorem Source.resolve_provenance_old :
    ∃ (s s' t : Session Int) (w w' : World Int Unit) (rs : List (Result Content)),
      s.Reached .any Settings.inSeconds 60 w ∧
      (oneField.resolve Settings.inSeconds (.lasting 60)).Run .any s w (.ok oldContent) s' w' ∧
      oneField.Shaped .any Settings.inSeconds 60 oneField.supported s w rs s' w' ∧
      .ok oldContent = Content.sorted (gathered rs []) ∧
      t.cache ≠ [] ∧
      (oneField.resolve Settings.inSeconds (.lasting 60)).result (Content.still Content.oneParameter) t () =
        (oneField.resolveWith (Lookup.fetch Settings.inSeconds)).result
          (Content.still Content.oneParameter) .none () := by
  have plain : oneField.IsPlain := ⟨.inl rfl, by simp [oneField, Content.namedField, Value.IsTextOrNull]⟩
  have ⟨traced, same⟩ := resolve_provenance Settings.inSeconds (d := 60) (by decide) plain
  let resolved : Op Int (Session Int) Content := oneField.resolve Settings.inSeconds (.lasting 60)
  let start : Session Int := ⟨[], .none⟩
  have ⟨s, s', first, second⟩ : ∃ s s', resolved.answered renewing start 0 = ((.ok oldContent, s), 30) ∧
      resolved.answered renewing s 30 = ((.ok oldContent, s'), 60) :=
    ⟨_, _, rfl, rfl⟩
  have ⟨w, run⟩ := Op.exists_run renewing (⟨(), []⟩ : World Int Unit) first
  have ⟨w', run'⟩ := Op.exists_run renewing w second
  have reached : s.Reached .any Settings.inSeconds 60 w := .resolve (.start rfl) plain run
  have ⟨rs, shaped, eq⟩ := traced _ _ _ _ _ _ _ reached run'
  have tells : (Content.still Content.oneParameter).Tells Content.oneParameter := fun _ _ => rfl
  have ⟨outcome, steady⟩ := exists_steady Settings.inSeconds tells
  have ⟨t, r, later, kept⟩ : ∃ t r, resolved.answered (Content.still Content.oneParameter) start () =
      ((r, t), ()) ∧ t.cache ≠ [] :=
    ⟨_, _, rfl, List.cons_ne_nil _ _⟩
  have answered : t.Answered (Content.still Content.oneParameter) Settings.inSeconds 60
      (Connections.Fits Settings.inSeconds Content.oneParameter) (fun _ => True) () :=
    .resolve (.start rfl (Connections.fits_none _) trivial) plain later
  exact ⟨s, s', t, w, w', rs, reached, run', shaped, eq, kept,
    same _ _ _ _ _ _ _ _ _ steady answered (Connections.fits_none _) trivial⟩

end SecretSync
