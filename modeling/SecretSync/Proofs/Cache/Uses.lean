import SecretSync.Proofs.Cache.History
import SecretSync.Proofs.Settings

/-!
Runs of a cache follow their course. What a key is given, and whether it is fetched, depends on the fetches
that succeeded and on what was invalidated since, but not on when expired entries are removed. Main
statement: `Cached.answered_runAll`.
-/

namespace SecretSync

-- An operation does not turn the clock back either.
theorem Responder.Ticks.onward_answered {τ σ ς α : Type} [LE τ] [Std.IsPreorder τ]
    {responder : Responder τ ς} {clock : ς → τ} (ticks : responder.Ticks clock) (op : Op τ σ α) (s : σ) (m : ς) :
    clock m ≤ clock (op.answered responder s m).2 := by
  rw [Op.answered]
  induction op.script s generalizing m
  case done => exact Std.le_refl _
  case ask call next hi => exact Std.le_trans (ticks.onward call m) (hi _ _)

namespace Cached

section

variable {τ ν γ ς : Type} {responder : Responder τ ς}

theorem answered_tallied (fetch : Op τ γ ν) (t : Tallied γ) (m : ς) :
    (tallied fetch).answered responder t m =
      let ((r, rest), m') := fetch.answered responder t.rest m
      ((r, ⟨rest, t.fetches + 1⟩), m') := by
  simp only [tallied, Op.answered_bind, Op.answered_modify, Op.answered_within]

variable [Timeline τ] {clock : ς → τ}

theorem answered_lookup (ticks : responder.Ticks clock) (key : CacheKey) (s : Cached τ ν γ) (m : ς) :
    (lookup key).answered responder s m =
      ((.ok (s.cache.lookup key (clock m)), ⟨s.cache.afterLookup key (clock m), s.rest⟩), m) := by
  simp only [lookup, Op.answered_bind, Op.answered_get]
  split
  case isTrue =>
    simp only [Op.answered_bind, Op.answered_now, Op.answered_get, ticks.now, modifyCache,
      Op.answered_modify]
    rfl
  case isFalse unknown =>
    have absent : s.cache.get? key = none := Option.not_isSome_iff_eq_none.mp unknown
    rw [Cache.lookup, Cache.afterLookup, absent]
    rfl

theorem answered_refresh (ticks : responder.Ticks clock) {key : CacheKey} (nonempty : key.isNonempty = true)
    (ttl : τ) (fetch : Op τ γ ν) (s : Cached τ ν γ) (m : ς) :
    (refresh key (.lasting ttl) fetch).answered responder s m =
      let ((r, rest), m') := fetch.answered responder s.rest m
      ((r, ⟨s.cache.afterFetch key ttl (clock m') r, rest⟩), m') := by
  simp only [refresh, Op.answered_bind, Op.answered_within]
  generalize fetch.answered responder s.rest m = reached
  have ⟨⟨r, rest⟩, m'⟩ := reached
  cases r
  case error => rfl
  case ok value =>
    simp only [Op.answered_now, ticks.now, Span.duration_lasting, Op.answered_ofResult, modifyCache,
      Op.answered_modify, if_pos nonempty]
    rfl

theorem answered_getOrFetch (ticks : responder.Ticks clock) {key : CacheKey} {ttl : τ}
    (nonempty : key.isNonempty = true) (positive : Timeline.zero < ttl) (fetch : Op τ γ ν)
    (s : Cached τ ν γ) (m : ς) :
    (getOrFetch (some key) (.lasting ttl) fetch).answered responder s m =
      let cache := s.cache.afterLookup key (clock m)
      match s.cache.lookup key (clock m) with
      | some value => ((.ok value, ⟨cache, s.rest⟩), m)
      | none =>
        let ((r, rest), m') := fetch.answered responder s.rest m
        ((r, ⟨cache.afterFetch key ttl (clock m') r, rest⟩), m') := by
  rw [getOrFetch, if_pos ((Span.isPositive_lasting ttl).mpr positive), Op.answered_bind,
    answered_lookup ticks]
  cases s.cache.lookup key (clock m)
  case none => exact answered_refresh ticks nonempty ttl fetch _ m
  case some => rfl

theorem answered_purge (ticks : responder.Ticks clock) (s : Cached τ ν γ) (m : ς) :
    ∃ swept, (purge : Op τ (Cached τ ν γ) Nat).answered responder s m =
      ((.ok swept, ⟨s.cache.removeAll (s.cache.expired (clock m)), s.rest⟩), m) := by
  refine ⟨(s.cache.expired (clock m)).length, ?_⟩
  simp only [purge, Op.answered_bind, Op.answered_now, Op.answered_get, ticks.now, modifyCache,
    Op.answered_modify]
  rfl

theorem answered_run_getOrFetch (ticks : responder.Ticks clock) {key : CacheKey} {ttl : τ}
    {fetch : Op τ γ ν} (proper : (Use.getOrFetch key ttl fetch).IsProper) (s : Cached τ ν (Tallied γ)) (m : ς) :
    (Use.getOrFetch key ttl fetch).run.answered responder s m =
      let cache := s.cache.afterLookup key (clock m)
      match s.cache.lookup key (clock m) with
      | some value => ((.ok [⟨.ok value, 0⟩], ⟨cache, s.rest.rest, 0⟩), m)
      | none =>
        let ((r, rest), m') := fetch.answered responder s.rest.rest m
        ((.ok [⟨r, 1⟩], ⟨cache.afterFetch key ttl (clock m') r, rest, 1⟩), m') := by
  have ⟨nonempty, positive⟩ := proper
  simp only [Use.run, Op.answered_bind, Op.answered_modify, Op.answered_attempt,
    answered_getOrFetch ticks nonempty positive, answered_tallied]
  cases s.cache.lookup key (clock m)
  case some => rfl
  case none => rfl

-- From a time on, a key is given the same from two caches and fetched alike, whatever else has become.
def GiveAlike (γ : Type) (responder : Responder τ ς) (clock : ς → τ) (key : CacheKey) (since : τ)
    (cache cache' : Cache τ ν) : Prop :=
  ∀ (ttl : τ) (fetch : Op τ γ ν) (rest : Tallied γ) (m : ς),
    (Use.getOrFetch key ttl fetch).IsProper → since ≤ clock m →
      (Use.getOrFetch key ttl fetch).run.result responder ⟨cache, rest⟩ m =
        (Use.getOrFetch key ttl fetch).run.result responder ⟨cache', rest⟩ m

theorem giveAlike_of_lookup_eq (ticks : responder.Ticks clock) {key : CacheKey} {since : τ}
    {cache cache' : Cache τ ν} (h : ∀ time, since ≤ time → cache.lookup key time = cache'.lookup key time) :
    GiveAlike γ responder clock key since cache cache' := by
  intro ttl fetch rest m proper later
  simp only [Op.result, answered_run_getOrFetch ticks proper, h (clock m) later]
  cases cache'.lookup key (clock m)
  case some => rfl
  case none => rfl

end

section

variable {τ ν γ ς : Type} [Timeline τ] {responder : Responder τ ς} {clock : ς → τ} {c : Course τ ν γ ς}
  {s : Cached τ ν (Tallied γ)}

-- From now on the cache serves what the history serves.
structure Agrees (clock : ς → τ) (c : Course τ ν γ ς) (s : Cached τ ν (Tallied γ)) : Prop where
  distinct : Table.Distinct s.cache
  rest     : s.rest.rest = c.rest
  serves   : ∀ key time, clock c.world ≤ time → s.cache.lookup key time = c.history.serves key time

namespace Agrees

theorem invalidate (agrees : Agrees clock c s) {value : Value}
    (proper : value = .null ∨ (CacheKey.ofValue? value).isSome = true) :
    ∃ cache, s.cache.invalidate value = .ok cache ∧
      Agrees clock ⟨.invalidated value :: c.history, c.rest, c.world⟩ ⟨cache, s.rest⟩ := by
  have ⟨cache, invalidated, distinct, cleared⟩ := Cache.exists_invalidate proper agrees.distinct
  refine ⟨cache, invalidated, distinct, agrees.rest, fun other time later => ?_⟩
  rw [cleared, Cache.History.serves_invalidated, agrees.serves other time later]

variable [Std.IsLinearOrder τ]

theorem now (agrees : Agrees clock c s) (key : CacheKey) :
    s.cache.lookup key (clock c.world) = c.history.serves key (clock c.world) :=
  agrees.serves key (clock c.world) (Std.le_refl _)

theorem wait (agrees : Agrees clock c s) {world : ς} (onward : clock c.world ≤ clock world) :
    Agrees clock ⟨c.history, c.rest, world⟩ s where
  distinct := agrees.distinct
  rest := agrees.rest
  serves key time later := agrees.serves key time (Std.le_trans onward later)

variable [Std.LawfulOrderLT τ]

theorem lookup (agrees : Agrees clock c s) (key : CacheKey) {world : ς}
    (onward : clock c.world ≤ clock world) (rest : γ) (fetches : Nat) :
    Agrees clock ⟨c.history, rest, world⟩ ⟨s.cache.afterLookup key (clock c.world), rest, fetches⟩ where
  distinct := Cache.distinct_afterLookup key _ agrees.distinct
  rest := rfl
  serves other time later := by
    have later : clock c.world ≤ time := Std.le_trans onward later
    rw [Cache.lookup_afterLookup key other agrees.distinct later, agrees.serves other time later]

theorem store (agrees : Agrees clock c s) {key : CacheKey} (value : ν) (ttl : τ)
    (missing : c.history.serves key (clock c.world) = none) {world : ς}
    (onward : clock c.world ≤ clock world) (rest : γ) (fetches : Nat) :
    Agrees clock ⟨.fetched key value (clock world) ttl :: c.history, rest, world⟩
      ⟨(s.cache.afterLookup key (clock c.world)).store key value ttl (clock world), rest, fetches⟩ where
  distinct := (Cache.distinct_afterLookup key _ agrees.distinct).put key _
  rest := rfl
  serves other time later := by
    have found := (agrees.lookup key onward rest fetches).serves other time later
    rw [Cache.lookup_store, found, Cache.History.serves_fetched, Cache.Event.gives]
    by_cases same : (key == other) = true
    case neg => rw [if_neg same, if_neg fun h => same h.left, Option.none_or]
    case pos =>
      -- No earlier value of the key is left by now, as it had to be fetched.
      have missing : c.history.serves other (clock c.world) = none := by
        rw [← agrees.now, ← Cache.lookup_congr same, agrees.now, missing]
      have later := Std.le_trans onward later
      rw [Cache.History.serves_eq_none_of_le missing later, Option.or_none, if_pos same]
      simp only [same, true_and]

theorem purge (agrees : Agrees clock c s) :
    Agrees clock c ⟨s.cache.removeAll (s.cache.expired (clock c.world)), s.rest⟩ where
  distinct := Cache.distinct_removeAll _ agrees.distinct
  rest := agrees.rest
  serves other time later := by
    rw [Cache.lookup_purged other agrees.distinct later, agrees.serves other time later]

end Agrees

variable [Std.IsLinearOrder τ] [Std.LawfulOrderLT τ]

-- One step of a run and one of its course.
theorem exists_run (ticks : responder.Ticks clock) {use : Use τ ν γ} (proper : use.IsProper)
    (agrees : Agrees clock c s) :
    ∃ s', use.run.answered responder s c.world =
        ((.ok (c.use responder clock use).1, s'), (c.use responder clock use).2.world) ∧
      Agrees clock (c.use responder clock use).2 s' := by
  cases use
  case getOrFetch key ttl fetch =>
    rw [answered_run_getOrFetch ticks proper, agrees.now, agrees.rest, Course.use]
    cases missing : c.history.serves key (clock c.world)
    case some => exact ⟨_, rfl, agrees.lookup key (Std.le_refl _) c.rest 0⟩
    case none =>
      have onward := ticks.onward_answered fetch c.rest c.world
      generalize fetch.answered responder c.rest c.world = reached at onward
      obtain ⟨⟨r, rest⟩, world⟩ := reached
      cases r
      case ok value => exact ⟨_, rfl, agrees.store value ttl missing onward rest 1⟩
      case error => exact ⟨_, rfl, agrees.lookup key onward rest 1⟩
  case invalidate value =>
    obtain ⟨cache, invalidated, left⟩ := agrees.invalidate proper
    refine ⟨⟨cache, s.rest⟩, ?_, left⟩
    simp only [Use.run, Cached.invalidate, Op.answered_bind, Op.answered_get, invalidated,
      Op.answered_ofResult]
    rfl
  case purge =>
    obtain ⟨swept, reached⟩ := answered_purge ticks s c.world
    refine ⟨_, ?_, agrees.purge⟩
    rw [Use.run, Op.answered_bind, reached]
    rfl
  case wait duration =>
    refine ⟨s, ?_, agrees.wait (ticks.onward _ _)⟩
    rw [Use.run, Op.answered_bind, Op.answered_wait]
    rfl

theorem exists_runAll (ticks : responder.Ticks clock) {uses : List (Use τ ν γ)}
    (proper : ∀ use ∈ uses, use.IsProper) (agrees : Agrees clock c s) :
    ∃ s', (Use.runAll uses).answered responder s c.world =
        ((.ok (c.useAll responder clock uses).1, s'), (c.useAll responder clock uses).2.world) ∧
      Agrees clock (c.useAll responder clock uses).2 s' := by
  induction uses generalizing c s
  case nil => exact ⟨s, rfl, agrees⟩
  case cons use uses hi =>
    have ⟨here, there⟩ := List.forall_mem_cons.mp proper
    have ⟨s₁, reached, agrees⟩ := exists_run ticks here agrees
    have ⟨s₂, finished, agrees⟩ := hi there agrees
    refine ⟨s₂, ?_, agrees⟩
    simp only [Use.runAll, Op.answered_bind, reached, finished]
    rfl

-- What a use does not concern is given alike before and after it.
theorem Agrees.giveAlike (agrees : Agrees clock c s) (ticks : responder.Ticks clock) {use : Use τ ν γ}
    (proper : use.IsProper) {key : CacheKey} (spared : use.concerns key = false)
    {r : Result (List (Given ν))} {s' : Cached τ ν (Tallied γ)} {m' : ς}
    (h : use.run.answered responder s c.world = ((r, s'), m')) :
    GiveAlike γ responder clock key (clock m') s.cache s'.cache := by
  have onward := ticks.onward_answered use.run s c.world
  have ⟨_, reached, left⟩ := exists_run ticks proper agrees
  rw [h] at onward reached
  cases reached
  refine giveAlike_of_lookup_eq ticks fun time later => ?_
  rw [agrees.serves key time (Std.le_trans onward later), left.serves key time later,
    Course.serves_use spared]

-- What a new cache gives, and what it fetches, is what the history says. A use changes nothing for the keys
-- that it does not concern, and it does not matter whether expired entries are removed.
theorem answered_runAll (ticks : responder.Ticks clock) {uses : List (Use τ ν γ)}
    (proper : ∀ use ∈ uses, use.IsProper) (new : s.cache = []) (m : ς) :
    let course := Course.useAll responder clock ⟨[], s.rest.rest, m⟩ uses
    ∃ s', (Use.runAll uses).answered responder s m = ((.ok course.1, s'), course.2.world) ∧
      s'.rest.rest = course.2.rest ∧
      (∀ (use : Use τ ν γ) (key : CacheKey), use.IsProper → use.concerns key = false →
        ∀ r s'' m', use.run.answered responder s' course.2.world = ((r, s''), m') →
          GiveAlike γ responder clock key (clock m') s'.cache s''.cache) ∧
      (Use.runAll (uses.filter fun use => !use.isPurge)).result responder s m =
        (Use.runAll uses).result responder s m := by
  intro course
  let start : Course τ ν γ ς := ⟨[], s.rest.rest, m⟩
  have agrees : Agrees clock start s := by
    refine ⟨?_, rfl, fun key time _ => ?_⟩
    all_goals rw [new]
    case refine_1 => trivial
    case refine_2 => rfl
  have ⟨s', reached, left⟩ := exists_runAll ticks proper agrees
  have fewer (use : Use τ ν γ) (mem : use ∈ uses.filter fun use => !use.isPurge) : use.IsProper :=
    proper use (List.mem_of_mem_filter mem)
  have ⟨_, reached', _⟩ := exists_runAll ticks fewer agrees
  refine ⟨s', reached, left.rest, ?_, ?_⟩
  · intro use key proper spared r s'' m' h
    exact left.giveAlike ticks proper spared h
  · rw [Op.result, Op.result, reached, reached', Course.useAll_filter]

end

-- A clock that moves on while it is waited for, and nothing else that answers.
def lonely : Responder Int Int
  | .cluster _ => fun m => (.error (.refused 404), m)
  | .remote _  => fun m => (.error (.remote "no such service"), m)
  | .now       => fun m => (m, m)
  | .wait d    => fun m => ((), max m (m + d))

theorem lonely_ticks : lonely.Ticks id where
  now _ := rfl
  onward call m := by
    cases call
    case wait => exact Int.le_max_left _ _
    all_goals exact Int.le_refl _

-- A fetch that takes a while.
def slowly (duration : Int) (r : Result Nat) : Op Int Unit Nat := do
  Op.wait duration
  Op.ofResult r

def single : CacheKey := .one (.text "a")
def paired : CacheKey := .several [.text "b", .null]

def twoKeys : List (Use Int Nat Unit) :=
  [.getOrFetch single 10 (slowly 5 (.ok 1)),
    .wait 9,
    .getOrFetch single 10 (slowly 5 (.ok 2)),
    .getOrFetch paired 20 (slowly 1 (.ok 3)),
    .purge,
    .getOrFetch single 10 (slowly 5 (.error .noSuchEntry)),
    .getOrFetch single 10 (slowly 5 (.ok 4)),
    .invalidate "a",
    .getOrFetch paired 20 (slowly 1 (.ok 5)),
    .getOrFetch single 10 (slowly 5 (.ok 6))]

-- The first value of the single key is served until 15, the time at which that of the pair is fetched.
theorem answered_runAll_twoKeys :
    (∀ use ∈ twoKeys, use.IsProper) ∧
      ∃ s', (Use.runAll twoKeys).answered lonely ⟨[], ⟨(), 0⟩⟩ 0 =
          ((.ok [⟨.ok 1, 1⟩, ⟨.ok 1, 0⟩, ⟨.ok 3, 1⟩, ⟨.error .noSuchEntry, 1⟩, ⟨.ok 4, 1⟩, ⟨.ok 3, 0⟩,
            ⟨.ok 6, 1⟩], s'), 30) ∧
        (∀ r s'' m', (Use.invalidate "a").run.answered lonely s' 30 = ((r, s''), m') →
          GiveAlike Unit lonely id paired m' s'.cache s''.cache) ∧
        (Use.runAll (twoKeys.filter fun use => !use.isPurge)).result lonely ⟨[], ⟨(), 0⟩⟩ 0 =
          (Use.runAll twoKeys).result lonely ⟨[], ⟨(), 0⟩⟩ 0 := by
  have proper : ∀ use ∈ twoKeys, use.IsProper := by
    simp [twoKeys, Use.IsProper, single, paired, CacheKey.isNonempty, CacheKey.ofValue?, Value.key?,
      Timeline.zero, Timeline.seconds]
  have ⟨s', reached, _, alike, erased⟩ := answered_runAll lonely_ticks proper (s := ⟨[], ⟨(), 0⟩⟩) rfl 0
  exact ⟨proper, s', reached, alike (.invalidate "a") paired (.inr rfl) rfl, erased⟩

end Cached
end SecretSync
