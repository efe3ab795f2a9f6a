import SecretSync.Proofs.Cache.Shared

/-!
Operations on a cache that run alone. A section does the same to the cache in any state, so an operation that
nobody comes between is a way through a scene, and scenes are made of the operations of the program. Main
statements: `Scene.Reachable.getOrFetch`, `Scene.Reachable.purge`, `Scene.Reachable.invalidate`.
-/

namespace SecretSync

variable {τ ν γ ς α : Type} {responder : Responder τ ς} {clock : ς → τ}

-- The operation does to the cache what the section does, and leaves the rest. No time passes.
def Op.IsSection (responder : Responder τ ς) (clock : ς → τ) (op : Op τ (Cached τ ν γ) α)
    (alone : Op τ (Cached τ ν Unit) α) : Prop :=
  ∀ st m, op.answered responder st m =
    (((Cached.locked alone (clock m) st.cache).1,
      ⟨(Cached.locked alone (clock m) st.cache).2, st.rest⟩), m)

theorem Op.IsSection.locked_eq {op : Op τ (Cached τ ν γ) α} {alone : Op τ (Cached τ ν Unit) α}
    (h : op.IsSection responder clock alone) {st st' : Cached τ ν γ} {m m' : ς} {r : Result α}
    (reached : op.answered responder st m = ((r, st'), m')) :
    m' = m ∧ Cached.locked alone (clock m) st.cache = (r, st'.cache) := by
  cases (h st m).symm.trans reached
  exact ⟨rfl, rfl⟩

namespace Cached

theorem isSection_invalidate (clock : ς → τ) (value : Value) :
    (invalidate value : Op τ (Cached τ ν γ) Unit).IsSection responder clock (invalidate value) := by
  intro st m
  rw [locked_invalidate]
  simp only [invalidate, Op.answered_bind, Op.answered_get, Op.answered_ofResult]
  cases st.cache.invalidate value
  case ok => rfl
  case error => rfl

variable [Timeline τ]

theorem isSection_sweep (clock : ς → τ) (now : τ) :
    (sweep now : Op τ (Cached τ ν γ) Nat).IsSection responder clock (sweep now) := by
  intro st m
  rw [locked_sweep]
  simp only [sweep, Op.answered_bind, Op.answered_get, modifyCache, Op.answered_modify]
  rfl

variable (ticks : responder.Ticks clock)
include ticks

theorem isSection_closing (key : CacheKey) (ttl : Span τ) (value : ν) :
    (closing key ttl value : Op τ (Cached τ ν γ) ν).IsSection responder clock (closing key ttl value) := by
  intro st m
  simp only [locked, closing, Op.answered_bind, Op.answered_now, ticks.now, Op.answered_ofResult]
  cases ttl.duration
  case error => rfl
  case ok =>
    simp only [modifyCache, Op.answered_modify]
    split
    all_goals rfl

theorem isSection_opening [Std.IsPreorder τ] (key : Option CacheKey) (ttl : Span τ) :
    (opening key ttl : Op τ (Cached τ ν γ) _).IsSection responder clock (opening key ttl) := by
  intro st m
  by_cases positive : ttl.isPositive = true
  case neg =>
    simp only [locked, opening, if_neg positive]
    rfl
  case pos =>
    cases key
    case none =>
      simp only [locked, opening, if_pos positive]
      rfl
    case some key =>
      simp only [locked, opening, if_pos positive, answered_lookup ticks,
        answered_lookup (Responder.ticks_standing (clock m))]

namespace Scene

omit ticks in
-- The scene is that of a cache at a time.
structure Shows (clock : ς → τ) (s : Scene τ ν) (st : Cached τ ν γ) (m : ς) : Prop where
  cache : s.cache = st.cache
  clock : s.clock = clock m

variable {s : Scene τ ν} {st st' : Cached τ ν γ} {m m' : ς}

omit ticks in
theorem Reachable.invalidate (reached : s.Reachable) (shows : s.Shows clock st m) {value : Value} {r : Result Unit}
    (h : (Cached.invalidate value).answered responder st m = ((r, st'), m')) :
    ∃ s' : Scene τ ν, s'.Reachable ∧ s'.Shows clock st' m' := by
  obtain ⟨rfl, ran⟩ := (isSection_invalidate clock value).locked_eq h
  rw [← shows.cache, ← shows.clock] at ran
  exact ⟨_, reached.step (.invalidate value ran), rfl, shows.clock⟩

theorem Reachable.purge (reached : s.Reachable) (shows : s.Shows clock st m) {r : Result Nat}
    (h : Cached.purge.answered responder st m = ((r, st'), m')) :
    ∃ s' : Scene τ ν, s'.Reachable ∧ s'.Shows clock st' m' := by
  rw [purge_eq, Op.answered_bind, Op.answered_now, ticks.now] at h
  obtain ⟨rfl, ran⟩ := (isSection_sweep clock (clock m)).locked_eq h
  rw [← shows.cache, ← shows.clock] at ran
  -- The clock is read, and the sweep comes at once.
  exact ⟨_, (reached.step .read).step (.sweep (List.nil_append _).symm ran), rfl, shows.clock⟩

variable [Std.IsPreorder τ]

theorem Reachable.refresh (reached : s.Reachable) (shows : s.Shows clock st m) {i : Nat} {key : CacheKey}
    {ttl : Span τ} (here : s.callers i = some ⟨some key, ttl, .fetching⟩) {fetch : Op τ γ ν} {r : Result ν}
    (h : (Cached.refresh key ttl fetch).answered responder st m = ((r, st'), m')) :
    ∃ s' : Scene τ ν, s'.Reachable ∧ s'.Shows clock st' m' ∧ s'.callers i = some ⟨some key, ttl, .ended r⟩ := by
  rcases answered : fetch.answered responder st.rest m with ⟨⟨fetched, rest⟩, m₁⟩
  rw [refresh_eq, Op.answered_bind, Op.answered_within, answered] at h
  -- Time passes while the value is fetched.
  have onward : s.clock ≤ clock m₁ := by
    have later := ticks.onward_answered fetch st.rest m
    rw [answered] at later
    exact shows.clock ▸ later
  have reached := (reached.step (.tick _ onward)).step (.fetch i fetched here)
  cases fetched
  case error fault =>
    cases h
    exact ⟨_, reached, ⟨shows.cache, rfl⟩, callers_after_self⟩
  case ok value =>
    obtain ⟨rfl, ran⟩ := (isSection_closing ticks key ttl value).locked_eq h
    exact ⟨_, reached.step (.store i callers_after_self (shows.cache ▸ ran)), ⟨rfl, rfl⟩, callers_after_self⟩

theorem Reachable.getOrFetch (reached : s.Reachable) (shows : s.Shows clock st m) {i : Nat}
    (new : s.callers i = none) {key : Option CacheKey} {ttl : Span τ} {fetch : Op τ γ ν} {r : Result ν}
    (h : (Cached.getOrFetch key ttl fetch).answered responder st m = ((r, st'), m')) :
    ∃ s' : Scene τ ν, s'.Reachable ∧ s'.Shows clock st' m' ∧ s'.callers i = some ⟨key, ttl, .ended r⟩ := by
  rcases looked : (opening key ttl).answered responder st m with ⟨⟨found, st₁⟩, m₁⟩
  rw [getOrFetch_eq, Op.answered_bind, looked] at h
  obtain ⟨rfl, ran⟩ := (isSection_opening ticks key ttl).locked_eq looked
  rw [← shows.cache, ← shows.clock] at ran
  have reached := (reached.step (.call i key ttl new)).step (.look i callers_after_self ran)
  rcases found with fault | _ | value
  case error =>
    cases h
    exact ⟨_, reached, ⟨rfl, shows.clock⟩, callers_after_self⟩
  case ok.some =>
    cases h
    exact ⟨_, reached, ⟨rfl, shows.clock⟩, callers_after_self⟩
  case ok.none =>
    -- What was looked up has a key.
    rcases locked_opening s.cache s.clock ttl key with ⟨fault, eq⟩ | ⟨k, rfl, _⟩
    · cases eq.symm.trans ran
    · exact reached.refresh ticks ⟨rfl, shows.clock⟩ callers_after_self h

end Scene
end Cached
end SecretSync
