import SecretSync.Proofs.Cache
import SecretSync.Proofs.Cache.Sections

/-!
A cache that is used by many at once. Calls, purges and invalidations run section by section, and between two
sections of one of them any others may run and time may pass. Main statement: `Scene.sound_of_reachable`.
-/

namespace SecretSync.Cached

-- How far a call has come.
inductive Stage (ν : Type)
  | called
  | fetching
  | storing (value : ν)
  | ended (r : Result ν)

namespace Stage

variable {ν : Type}

def ofLookup : Result (Option ν) → Stage ν
  | .ok (some value) => ended (.ok value)
  | .ok none => fetching
  | .error fault => ended (.error fault)

def ofFetch : Result ν → Stage ν
  | .ok value => storing value
  | .error fault => ended (.error fault)

end Stage

structure Caller (τ ν : Type) where
  key   : Option CacheKey
  ttl   : Span τ
  stage : Stage ν

-- What is noted of the calls, each of which has a number.
inductive Note (τ ν : Type)
  | looked (i : Nat) (time : τ)
  | fetched (i : Nat) (r : Result ν)
  | stored (i : Nat) (expires : τ)

def Note.fetch? {τ ν : Type} (i : Nat) : Note τ ν → Option (Result ν)
  | fetched j r => if j = i then some r else none
  | _ => none

structure Scene (τ ν : Type) where
  cache    : Cache τ ν
  clock    : τ
  callers  : Nat → Option (Caller τ ν)
  readings : List τ          -- what purges have read from the clock that are still to sweep
  notes    : List (Note τ ν) -- the latest note comes first

namespace Scene

variable {τ ν : Type}

def start (clock : τ) : Scene τ ν :=
  ⟨[], clock, fun _ => none, [], []⟩

-- The scene after a section of a call, which leaves a cache and notes.
def after (s : Scene τ ν) (i : Nat) (caller : Caller τ ν) (cache : Cache τ ν) (notes : List (Note τ ν)) :
    Scene τ ν :=
  { s with cache, callers := Function.update s.callers i (some caller), notes := notes ++ s.notes }

-- What the fetches of a call came to.
def fetches (s : Scene τ ν) (i : Nat) : List (Result ν) :=
  s.notes.filterMap (Note.fetch? i)

-- Where an entry comes from.
inductive Origin (s : Scene τ ν) (entry : CacheKey × CacheEntry τ ν) : Prop
  | intro {j : Nat} {other : Caller τ ν} {k : CacheKey} (lent : s.callers j = some other)
      (known : other.key = some k) (same : (k == entry.1) = true)
      (fetched : .fetched j (.ok entry.2.value) ∈ s.notes) (stored : .stored j entry.2.expires ∈ s.notes)

-- What was noted stays, and calls keep their keys.
structure Before (s s' : Scene τ ν) : Prop where
  notes   : s.notes <:+ s'.notes
  callers : ∀ i caller, s.callers i = some caller →
    ∃ caller', s'.callers i = some caller' ∧ caller'.key = caller.key

variable {s s' : Scene τ ν} {i : Nat} {caller : Caller τ ν} {cache : Cache τ ν} {notes : List (Note τ ν)}

theorem fetches_after (j : Nat) :
    (s.after i caller cache notes).fetches j = notes.filterMap (Note.fetch? j) ++ s.fetches j :=
  List.filterMap_append ..

theorem callers_after_self : (s.after i caller cache notes).callers i = some caller :=
  Function.update_self ..

theorem callers_after_of_ne {j : Nat} (h : j ≠ i) : (s.after i caller cache notes).callers j = s.callers j :=
  Function.update_of_ne h ..

theorem key_eq_of_here {key : Option CacheKey} {ttl : Span τ} {stage stage' : Stage ν}
    (here : s.callers i = some ⟨key, ttl, stage⟩) :
    ∀ old, s.callers i = some old → old.key = (⟨key, ttl, stage'⟩ : Caller τ ν).key := by
  intro old eq
  cases here.symm.trans eq
  rfl

theorem mem_notes_of_mem_fetches {r : Result ν} (h : r ∈ s.fetches i) : .fetched i r ∈ s.notes := by
  have ⟨note, mem, eq⟩ := List.mem_filterMap.mp h
  cases note
  case fetched j r' =>
    simp only [Note.fetch?] at eq
    split at eq
    case isTrue same =>
      cases eq
      exact same ▸ mem
    case isFalse => cases eq
  all_goals cases eq

namespace Before

theorem of_eq (notes : s'.notes = s.notes) (callers : s'.callers = s.callers) : s.Before s' where
  notes := notes ▸ List.suffix_rfl
  callers _ caller here := ⟨caller, callers ▸ here, rfl⟩

theorem after (known : ∀ old, s.callers i = some old → old.key = caller.key) :
    s.Before (s.after i caller cache notes) where
  notes := List.suffix_append ..
  callers j old here := by
    by_cases own : j = i
    case pos =>
      subst own
      exact ⟨caller, callers_after_self, (known old here).symm⟩
    case neg => exact ⟨old, by rwa [callers_after_of_ne own], rfl⟩

theorem origin (before : s.Before s') {entry : CacheKey × CacheEntry τ ν} (h : s.Origin entry) :
    s'.Origin entry := by
  have ⟨lent, known, same, fetched, stored⟩ := h
  have ⟨_, lent, kept⟩ := before.callers _ _ lent
  exact ⟨lent, kept.trans known, same, before.notes.mem fetched, before.notes.mem stored⟩

end Before

variable [Timeline τ]

def storeNotes (i : Nat) (ttl : Span τ) (clock : τ) : List (Note τ ν) :=
  match ttl.duration with
  | .ok d => [.stored i (clock + d)]
  | .error _ => []

inductive Step : Scene τ ν → Scene τ ν → Prop
  | tick {s : Scene τ ν} (time : τ) (onward : s.clock ≤ time) : Step s { s with clock := time }
  | call {s : Scene τ ν} (i : Nat) (key : Option CacheKey) (ttl : Span τ) (new : s.callers i = none) :
      Step s (s.after i ⟨key, ttl, .called⟩ s.cache [])
  | look {s : Scene τ ν} (i : Nat) {key : Option CacheKey} {ttl : Span τ} {r : Result (Option ν)}
      {cache : Cache τ ν} (here : s.callers i = some ⟨key, ttl, .called⟩)
      (ran : locked (opening key ttl) s.clock s.cache = (r, cache)) :
      Step s (s.after i ⟨key, ttl, .ofLookup r⟩ cache [.looked i s.clock])
  | fetch {s : Scene τ ν} (i : Nat) {key : Option CacheKey} {ttl : Span τ} (r : Result ν)
      (here : s.callers i = some ⟨key, ttl, .fetching⟩) :
      Step s (s.after i ⟨key, ttl, .ofFetch r⟩ s.cache [.fetched i r])
  | store {s : Scene τ ν} (i : Nat) {key : CacheKey} {ttl : Span τ} {value : ν} {r : Result ν} {cache : Cache τ ν}
      (here : s.callers i = some ⟨some key, ttl, .storing value⟩)
      (ran : locked (closing key ttl value) s.clock s.cache = (r, cache)) :
      Step s (s.after i ⟨some key, ttl, .ended r⟩ cache (storeNotes i ttl s.clock))
  | invalidate {s : Scene τ ν} (value : Value) {r : Result Unit} {cache : Cache τ ν}
      (ran : locked (Cached.invalidate value) s.clock s.cache = (r, cache)) : Step s { s with cache }
  | read {s : Scene τ ν} : Step s { s with readings := s.clock :: s.readings }
  | sweep {s : Scene τ ν} {now : τ} {before after : List τ} {r : Result Nat} {cache : Cache τ ν}
      (pending : s.readings = before ++ now :: after)
      (ran : locked (Cached.sweep now) s.clock s.cache = (r, cache)) :
      Step s { s with cache, readings := before ++ after }

inductive Reachable : Scene τ ν → Prop
  | start (clock : τ) : Reachable (start clock)
  | step {s s' : Scene τ ν} (h : Reachable s) (step : Step s s') : Reachable s'

-- What a section that may run now deletes.
inductive Deletes (s : Scene τ ν) : List CacheKey → Prop
  | lookup {i : Nat} {key : CacheKey} {ttl : Span τ} {entry : CacheEntry τ ν}
      (here : s.callers i = some ⟨some key, ttl, .called⟩) (positive : ttl.isPositive = true)
      (found : s.cache.get? key = some entry) (late : ¬s.clock < entry.expires) : Deletes s [key]
  | sweep {now : τ} (pending : now ∈ s.readings) : Deletes s (s.cache.expired now)

-- A lookup takes nothing else from the cache,
theorem exists_deletes_of_opening [Std.IsPreorder τ] {key : Option CacheKey} {ttl : Span τ} {r : Result (Option ν)}
    (here : s.callers i = some ⟨key, ttl, .called⟩) (ran : locked (opening key ttl) s.clock s.cache = (r, cache)) :
    ∃ keys, cache = s.cache.removeAll keys ∧ (keys = [] ∨ s.Deletes keys) := by
  rcases locked_opening s.cache s.clock ttl key with ⟨fault, eq⟩ | ⟨k, rfl, positive, eq⟩
  · cases eq.symm.trans ran
    exact ⟨[], rfl, .inl rfl⟩
  · cases eq.symm.trans ran
    simp only [Cache.afterLookup]
    split
    case h_2 => exact ⟨[], rfl, .inl rfl⟩
    case h_1 entry found =>
      split
      case isTrue => exact ⟨[], rfl, .inl rfl⟩
      case isFalse late => exact ⟨[k], rfl, .inr (.lookup here positive found late)⟩

-- and neither does a sweep.
theorem deletes_of_sweep {now : τ} {r : Result Nat} (pending : now ∈ s.readings)
    (ran : locked (Cached.sweep now) s.clock s.cache = (r, cache)) :
    s.Deletes (s.cache.expired now) ∧ cache = s.cache.removeAll (s.cache.expired now) := by
  cases (locked_sweep now).symm.trans ran
  exact ⟨.sweep pending, rfl⟩

-- Before call `i` looked at the cache, a value of the same key had been fetched by a call and stored, with an
-- expiry later than the time of that look.
inductive Served (s : Scene τ ν) (i : Nat) (key : CacheKey) (value : ν) : Prop
  | intro {time expires : τ} {later earlier : List (Note τ ν)} {j : Nat} {other : Caller τ ν} {k : CacheKey}
      (looked : s.notes = later ++ .looked i time :: earlier) (lent : s.callers j = some other)
      (known : other.key = some k) (same : (k == key) = true) (fetched : .fetched j (.ok value) ∈ earlier)
      (stored : .stored j expires ∈ earlier) (fresh : time < expires)

-- What has been noted of a call at each stage.
def Fits (s : Scene τ ν) (i : Nat) (key : Option CacheKey) : Stage ν → Prop
  | .called => s.fetches i = []
  | .fetching => s.fetches i = []
  | .storing value => s.fetches i = [.ok value]
  | .ended r => (s.fetches i).length ≤ 1 ∧ ∀ value, r = .ok value →
      s.fetches i = [.ok value] ∨ ∃ known, key = some known ∧ s.Served i known value

structure Sound (s : Scene τ ν) : Prop where
  distinct : Table.Distinct s.cache
  kept     : ∀ entry ∈ s.cache, s.Origin entry
  read     : ∀ now ∈ s.readings, now ≤ s.clock
  idle     : ∀ i, s.callers i = none → s.fetches i = []
  course   : ∀ i caller, s.callers i = some caller → s.Fits i caller.key caller.stage

namespace Before

variable (before : s.Before s')
include before

theorem served {key : CacheKey} {value : ν} (h : s.Served i key value) : s'.Served i key value := by
  obtain ⟨looked, lent, known, same, fetched, stored, fresh⟩ := h
  have ⟨newer, eq⟩ := before.notes
  have ⟨other, lent, kept⟩ := before.callers _ _ lent
  rw [looked, ← List.append_assoc] at eq
  exact ⟨eq.symm, lent, kept.trans known, same, fetched, stored, fresh⟩

theorem fits {key : Option CacheKey} {stage : Stage ν} (quiet : s'.fetches i = s.fetches i)
    (h : s.Fits i key stage) : s'.Fits i key stage := by
  cases stage
  case called => exact quiet.trans h
  case fetching => exact quiet.trans h
  case storing => exact quiet.trans h
  case ended r =>
    rw [Fits, quiet]
    refine ⟨h.left, fun value eq => (h.right value eq).imp_right fun served => ?_⟩
    have ⟨known, eq, served⟩ := served
    exact ⟨known, eq, before.served served⟩

end Before

namespace Sound

theorem next (sound : s.Sound) (before : s.Before s') (distinct : Table.Distinct s'.cache)
    (kept : ∀ entry ∈ s'.cache, entry ∈ s.cache ∨ s'.Origin entry) (read : ∀ now ∈ s'.readings, now ≤ s'.clock)
    (idle : ∀ i, s'.callers i = none → s'.fetches i = [])
    (course : ∀ i caller, s'.callers i = some caller →
      s.callers i = some caller ∧ s'.fetches i = s.fetches i ∨ s'.Fits i caller.key caller.stage) : s'.Sound where
  distinct
  kept entry mem := by
    rcases kept entry mem with mem | origin
    · exact before.origin (sound.kept entry mem)
    · exact origin
  read
  idle
  course i caller here := by
    rcases course i caller here with ⟨before', quiet⟩ | fits
    · exact before.fits quiet (sound.course i caller before')
    · exact fits

-- A step that no call takes.
theorem aside (sound : s.Sound) (callers : s'.callers = s.callers) (notes : s'.notes = s.notes)
    (distinct : Table.Distinct s'.cache) (kept : ∀ entry ∈ s'.cache, entry ∈ s.cache)
    (read : ∀ now ∈ s'.readings, now ≤ s'.clock) : s'.Sound := by
  have quiet (i : Nat) : s'.fetches i = s.fetches i := by rw [fetches, notes, ← fetches]
  refine sound.next (.of_eq notes callers) distinct (fun entry mem => .inl (kept entry mem)) read ?_ ?_
  · exact fun i none => (quiet i).trans (sound.idle i (callers ▸ none))
  · exact fun i caller here => .inl ⟨callers ▸ here, quiet i⟩

-- A section of a call.
theorem after (sound : s.Sound) (known : ∀ old, s.callers i = some old → old.key = caller.key)
    (distinct : Table.Distinct cache)
    (kept : ∀ entry ∈ cache, entry ∈ s.cache ∨ (s.after i caller cache notes).Origin entry)
    (own : ∀ j ≠ i, notes.filterMap (Note.fetch? j) = [])
    (fits : (s.after i caller cache notes).Fits i caller.key caller.stage) :
    (s.after i caller cache notes).Sound := by
  have quiet {j : Nat} (h : j ≠ i) : (s.after i caller cache notes).fetches j = s.fetches j := by
    rw [fetches_after, own j h, List.nil_append]
  refine sound.next (.after known) distinct kept sound.read (fun j none => ?_) fun j other here => ?_
  · by_cases same : j = i
    case pos =>
      rw [same, callers_after_self] at none
      cases none
    case neg =>
      rw [callers_after_of_ne same] at none
      exact (quiet same).trans (sound.idle j none)
  · by_cases same : j = i
    case pos =>
      rw [same, callers_after_self] at here
      cases here
      exact .inr (same ▸ fits)
    case neg =>
      rw [callers_after_of_ne same] at here
      exact .inl ⟨here, quiet same⟩

theorem served_of_lookup (sound : s.Sound) {key : CacheKey} {value : ν}
    (found : s.cache.lookup key s.clock = some value)
    (before : s.Before (s.after i caller cache [.looked i s.clock])) :
    (s.after i caller cache [.looked i s.clock]).Served i key value := by
  obtain ⟨k, entry, mem, same, fresh, eq⟩ := Cache.exists_of_lookup found
  subst eq
  obtain ⟨lent, known, same', fetched, stored⟩ := sound.kept _ mem
  have ⟨other, lent, kept⟩ := before.callers _ _ lent
  exact ⟨(List.nil_append _).symm, lent, kept.trans known, BEq.trans same' same, fetched, stored, fresh⟩

theorem look [Std.IsPreorder τ] (sound : s.Sound) {key : Option CacheKey} {ttl : Span τ} {r : Result (Option ν)}
    (here : s.callers i = some ⟨key, ttl, .called⟩)
    (ran : locked (opening key ttl) s.clock s.cache = (r, cache)) :
    (s.after i ⟨key, ttl, .ofLookup r⟩ cache [.looked i s.clock]).Sound := by
  have none : s.fetches i = [] := sound.course i _ here
  have quiet : (s.after i ⟨key, ttl, .ofLookup r⟩ cache [.looked i s.clock]).fetches i = [] := by
    rw [fetches_after, none]
    rfl
  have own : ∀ j ≠ i, ([.looked i s.clock] : List (Note τ ν)).filterMap (Note.fetch? j) = [] := fun _ _ => rfl
  rcases locked_opening s.cache s.clock ttl key with ⟨fault, eq⟩ | ⟨k, given, _, eq⟩
  · cases eq.symm.trans ran
    refine sound.after (key_eq_of_here here) sound.distinct (fun _ mem => .inl mem) own ?_
    exact ⟨by simp [quiet], nofun⟩
  · cases eq.symm.trans ran
    refine sound.after (key_eq_of_here here) (Cache.distinct_afterLookup k _ sound.distinct) ?_ own ?_
    · exact fun _ mem => .inl (Cache.mem_of_mem_afterLookup mem)
    · cases found : s.cache.lookup k s.clock
      case none =>
        rw [found] at quiet
        exact quiet
      case some value =>
        rw [found] at quiet
        refine ⟨by simp [quiet], fun value' eq => .inr ⟨k, given, ?_⟩⟩
        cases eq
        exact sound.served_of_lookup found (.after (key_eq_of_here here))

theorem fetch (sound : s.Sound) {key : Option CacheKey} {ttl : Span τ} (r : Result ν)
    (here : s.callers i = some ⟨key, ttl, .fetching⟩) :
    (s.after i ⟨key, ttl, .ofFetch r⟩ s.cache [.fetched i r]).Sound := by
  have none : s.fetches i = [] := sound.course i _ here
  have once : (s.after i ⟨key, ttl, .ofFetch r⟩ s.cache [.fetched i r]).fetches i = [r] := by
    rw [fetches_after, none]
    simp [Note.fetch?]
  refine sound.after (key_eq_of_here here) sound.distinct (fun _ mem => .inl mem) (fun j differs => ?_) ?_
  · simp [Note.fetch?, differs.symm]
  · cases r
    case ok value => exact once
    case error => exact ⟨by simp [once], nofun⟩

theorem store (sound : s.Sound) {key : CacheKey} {ttl : Span τ} {value : ν} {r : Result ν}
    (here : s.callers i = some ⟨some key, ttl, .storing value⟩)
    (ran : locked (closing key ttl value) s.clock s.cache = (r, cache)) :
    (s.after i ⟨some key, ttl, .ended r⟩ cache (storeNotes i ttl s.clock)).Sound := by
  have once : s.fetches i = [.ok value] := sound.course i _ here
  rcases locked_closing s.cache s.clock ttl key value with ⟨fault, unusable, eq⟩ | ⟨d, r, lasting, own, eq⟩
  · cases eq.symm.trans ran
    rw [storeNotes, unusable]
    refine sound.after (key_eq_of_here here) sound.distinct (fun _ mem => .inl mem) (fun _ _ => rfl) ?_
    exact ⟨by simp [fetches_after, once], nofun⟩
  · cases eq.symm.trans ran
    rw [storeNotes, lasting]
    refine sound.after (key_eq_of_here here) (sound.distinct.put key _) (fun entry mem => ?_) (fun _ _ => rfl) ?_
    · rcases Cache.mem_store mem with mem | ⟨eq, same⟩
      · exact .inl mem
      · have fetched := mem_notes_of_mem_fetches (once ▸ List.mem_singleton_self _)
        refine .inr ⟨callers_after_self, rfl, BEq.symm same, ?_, ?_⟩
        · exact eq ▸ List.mem_cons_of_mem _ fetched
        · exact eq ▸ List.mem_cons_self
    · refine ⟨by simp [fetches_after, once, Note.fetch?], fun v eq => .inl ?_⟩
      cases own v eq
      rw [fetches_after, once]
      rfl

theorem step [Std.IsPreorder τ] (sound : s.Sound) (step : Step s s') : s'.Sound := by
  cases step
  case tick time onward =>
    refine sound.aside rfl rfl sound.distinct (fun _ mem => mem) fun now mem => ?_
    exact Std.le_trans (sound.read now mem) onward
  case call i key ttl new =>
    refine sound.after (fun old here => ?_) sound.distinct (fun _ mem => .inl mem) (fun _ _ => rfl) ?_
    · cases new.symm.trans here
    · exact (fetches_after i).trans (sound.idle i new)
  case look here ran => exact sound.look here ran
  case fetch i key ttl r here => exact sound.fetch r here
  case store here ran => exact sound.store here ran
  case invalidate value r cache ran =>
    rw [locked_invalidate] at ran
    split at ran
    case h_1 _ invalidated =>
      cases ran
      have ⟨distinct, fewer⟩ := Cache.fewer_of_invalidate invalidated sound.distinct
      exact sound.aside rfl rfl distinct fewer sound.read
    case h_2 =>
      cases ran
      exact sound
  case read =>
    refine sound.aside rfl rfl sound.distinct (fun _ mem => mem) fun now mem => ?_
    cases mem
    case head => exact Std.le_refl _
    case tail mem => exact sound.read now mem
  case sweep now before after r cache pending ran =>
    cases (locked_sweep now).symm.trans ran
    refine sound.aside rfl rfl (Cache.distinct_removeAll _ sound.distinct) ?_ fun time mem => ?_
    · exact fun _ mem => Cache.mem_of_mem_removeAll mem
    · refine sound.read time ?_
      rw [pending]
      rcases List.mem_append.mp mem with mem | mem
      · exact List.mem_append_left _ mem
      · exact List.mem_append_right _ (List.mem_cons_of_mem _ mem)

theorem start (clock : τ) : (start clock : Scene τ ν).Sound where
  distinct := trivial
  kept := List.forall_mem_nil _
  read := List.forall_mem_nil _
  idle _ _ := rfl
  course _ _ here := by cases here

end Sound

theorem Reachable.sound [Std.IsPreorder τ] (h : s.Reachable) : s.Sound := by
  induction h
  case start clock => exact .start clock
  case step step sound => exact sound.step step

theorem Sound.deletable (sound : s.Sound) {keys : List CacheKey} (h : s.Deletes keys) :
    s.cache.Deletable keys := by
  cases h
  case lookup found _ => exact ⟨by rw [Table.has, found]; rfl, trivial⟩
  case sweep now _ => exact Cache.deletable_expired sound.distinct now

theorem Sound.fetches_le (sound : s.Sound) (here : s.callers i = some caller) : (s.fetches i).length ≤ 1 := by
  have fits := sound.course i caller here
  cases reached : caller.stage
  all_goals rw [reached] at fits
  case called => simp [show s.fetches i = [] from fits]
  case fetching => simp [show s.fetches i = [] from fits]
  case storing value => simp [show s.fetches i = [.ok value] from fits]
  case ended => exact fits.left

-- A sweep spares what is served when it comes, whenever that was stored.
theorem Sound.spared [Std.LawfulOrderLT τ] [Std.IsPreorder τ] (sound : s.Sound) {now : τ}
    (pending : now ∈ s.readings) {key : CacheKey} {entry : CacheEntry τ ν} (found : s.cache.get? key = some entry)
    (fresh : s.clock < entry.expires) :
    Table.get? key (locked (sweep now) s.clock s.cache).2 = some entry := by
  rw [locked_sweep, Cache.get?_removeAll _ _ sound.distinct]
  rw [if_neg, found]
  intro swept
  have ⟨k, expired, same⟩ := List.any_eq_true.mp swept
  have ⟨old, kept, eq⟩ := List.mem_map.mp expired
  have ⟨mem, dead⟩ := List.mem_filter.mp kept
  have same : s.cache.get? key = some old.2 := by
    rw [← Table.get?_congr same, ← eq]
    exact Table.get?_of_mem sound.distinct mem
  cases found.symm.trans same
  exact Std.not_lt_of_ge (Std.le_trans (of_decide_eq_true dead) (sound.read now pending)) fresh

-- However calls, purges and invalidations are interleaved: whatever is deleted is there; a call fetches once at
-- most, and what it returns was fetched by itself, or by another call for the same key and stored, not to expire
-- before it was looked up; and a purge spares what has not expired when it comes to sweep.
theorem sound_of_reachable [Std.LawfulOrderLT τ] [Std.IsPreorder τ] (h : s.Reachable) :
    (∀ keys, s.Deletes keys → s.cache.Deletable keys) ∧
    (∀ i caller, s.callers i = some caller → (s.fetches i).length ≤ 1 ∧
      ∀ value, caller.stage = .ended (.ok value) → s.fetches i = [.ok value] ∨
        ∃ key, caller.key = some key ∧ s.Served i key value) ∧
    ∀ now ∈ s.readings, ∀ key entry, s.cache.get? key = some entry → s.clock < entry.expires →
      Table.get? key (locked (sweep now) s.clock s.cache).2 = some entry := by
  have sound := h.sound
  refine ⟨fun keys => sound.deletable, fun i caller here => ⟨sound.fetches_le here, fun value ended => ?_⟩,
    fun now pending key entry => sound.spared pending⟩
  have fits := sound.course i caller here
  rw [ended] at fits
  exact fits.right value rfl

def sharedKey : CacheKey := .one (.int 1)

-- Two calls miss the same key, and both fetch it and store what they get, one of them after a purge has read the
-- clock. A third call looks later.
theorem exists_reachable_twice :
    ∃ s : Scene Int Nat, s.Reachable ∧ s.clock = 5 ∧ s.readings = [0] ∧
      s.callers 2 = some ⟨some sharedKey, .lasting 10, .ended (.ok 7)⟩ ∧ s.fetches 2 = [] ∧
      s.cache.get? sharedKey = some ⟨7, 15⟩ := by
  have reached := Reachable.start (τ := Int) (ν := Nat) 0
  have reached := reached.step (.call 0 (some sharedKey) (.lasting 10) rfl)
  have reached := reached.step (.call 1 (some sharedKey) (.lasting 10) rfl)
  have reached := reached.step (.look 0 rfl rfl)
  have reached := reached.step (.look 1 rfl rfl)
  have reached := reached.step (.fetch 0 (.ok 7) rfl)
  have reached := reached.step (.fetch 1 (.ok 8) rfl)
  have reached := reached.step (.store 1 rfl rfl)
  have reached := reached.step .read
  have reached := reached.step (.tick 5 (by decide))
  have reached := reached.step (.store 0 rfl rfl)
  have reached := reached.step (.call 2 (some sharedKey) (.lasting 10) rfl)
  have reached := reached.step (.look 2 rfl rfl)
  exact ⟨_, reached, rfl, rfl, rfl, rfl, rfl⟩

-- The third call is served what was stored last, and the purge spares it.
theorem sound_of_reachable_twice :
    ∃ s : Scene Int Nat, s.Reachable ∧ s.callers 2 = some ⟨some sharedKey, .lasting 10, .ended (.ok 7)⟩ ∧
      s.Served 2 sharedKey 7 ∧ s.readings = [0] ∧
      Table.get? sharedKey (locked (sweep 0) s.clock s.cache).2 = some ⟨7, 15⟩ := by
  have ⟨s, reached, clock, readings, ended, unfetched, kept⟩ := exists_reachable_twice
  have sound := sound_of_reachable reached
  have spared := sound.right.right 0 (readings ▸ List.mem_cons_self) sharedKey _ kept (clock ▸ by decide)
  refine ⟨s, reached, ended, ?_, readings, spared⟩
  rcases (sound.right.left 2 _ ended).right 7 rfl with own | ⟨k, eq, served⟩
  · cases unfetched.symm.trans own
  · cases eq
    exact served

end Scene
end SecretSync.Cached
