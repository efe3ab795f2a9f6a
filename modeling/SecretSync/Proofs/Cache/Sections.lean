import SecretSync.Proofs.Cache.Uses

/-!
The sections of the operations on a cache. During a section nobody else uses the cache, but between two of them
others may. Main statements: `getOrFetch_eq` and `purge_eq` put the operations together from their sections,
`locked_…` tells what each section does, and `deletable_expired` that a sweep deletes nothing twice.
-/

namespace SecretSync

-- The clock stands. Sections make no other calls than to read it, and read it once at most.
def Responder.standing {τ : Type} (time : τ) : Responder τ Unit
  | .cluster _ => pure (.error default)
  | .remote _ => pure (.error default)
  | .now => pure time
  | .wait _ => pure ()

theorem Responder.ticks_standing {τ : Type} [LE τ] [Std.IsPreorder τ] (time : τ) :
    (standing time).Ticks fun _ => time where
  now _ := rfl
  onward _ _ := Std.le_refl time

namespace Cache

variable {τ ν : Type} {c : Cache τ ν}

-- The keys are deleted one after the other, and each of them is there when its turn comes.
def Deletable : List CacheKey → Cache τ ν → Prop
  | [], _ => True
  | key :: keys, c => c.has key = true ∧ Deletable keys (c.remove key)

theorem deletable_of_pairwise {keys : List CacheKey} (distinct : Table.Distinct c)
    (apart : keys.Pairwise fun key other => (key == other) = false) (there : ∀ key ∈ keys, c.has key = true) :
    Deletable keys c := by
  induction keys generalizing c
  case nil => trivial
  case cons key keys hi =>
    have ⟨first, apart⟩ := List.pairwise_cons.mp apart
    have ⟨here, there⟩ := List.forall_mem_cons.mp there
    refine ⟨here, hi (distinct.remove key) apart fun other mem => ?_⟩
    rw [Table.has, Table.get?_remove_of_ne (first other mem)]
    exact there other mem

theorem mem_of_mem_removeAll {keys : List CacheKey} {entry : CacheKey × CacheEntry τ ν}
    (h : entry ∈ c.removeAll keys) : entry ∈ c := by
  induction keys generalizing c
  case nil => exact h
  case cons key keys hi => exact Table.mem_of_mem_remove (hi h)

-- To invalidate a key adds nothing.
theorem fewer_of_invalidate {value : Value} {c' : Cache τ ν} (h : c.invalidate value = .ok c')
    (distinct : Table.Distinct c) : Table.Distinct c' ∧ ∀ entry ∈ c', entry ∈ c := by
  rw [invalidate.eq_def] at h
  split at h
  case h_1 =>
    cases h
    exact ⟨trivial, List.forall_mem_nil _⟩
  case h_2 =>
    split at h
    case isTrue =>
      cases h
      exact ⟨distinct, fun _ mem => mem⟩
    case isFalse =>
      simp only [Result.bind_eq_ok_iff, Result.pure_eq_ok_iff] at h
      obtain ⟨key, _, eq⟩ := h
      subst eq
      exact ⟨distinct.remove key, fun _ mem => Table.mem_of_mem_remove mem⟩

variable [Timeline τ]

theorem deletable_expired (distinct : Table.Distinct c) (now : τ) : Deletable (c.expired now) c := by
  have apart := (Table.distinct_iff_pairwise.mp distinct).filter fun entry => entry.2.expires ≤ now
  refine deletable_of_pairwise distinct (List.pairwise_map.mpr apart) fun key mem => ?_
  have ⟨entry, kept, eq⟩ := List.mem_map.mp mem
  subst eq
  rw [Table.has, Table.get?_of_mem distinct (List.mem_filter.mp kept).left]
  rfl

end Cache

namespace Cached

section

variable {τ ν γ : Type} [Timeline τ]

-- The first section of a call: the lookup, if what was asked for can be looked up.
def opening (key : Option CacheKey) (ttl : Span τ) : Op τ (Cached τ ν γ) (Option ν) :=
  if ttl.isPositive then
    match key with
    | none => throw .wrongKind
    | some key => lookup key
  else throw .nonPositiveTtl

-- Its last section: what was fetched is stored.
def closing (key : CacheKey) (ttl : Span τ) (value : ν) : Op τ (Cached τ ν γ) ν := do
  let time ← Op.now
  let ttl ← Op.ofResult ttl.duration
  modifyCache (Cache.store key value ttl time)
  if key.isNonempty then pure value else throw .noSuchPosition

-- The section of a purge. It reads the clock before.
def sweep (now : τ) : Op τ (Cached τ ν γ) Nat := do
  let expired := (← get).cache.expired now
  modifyCache (Cache.removeAll expired)
  pure expired.length

-- The cache is open to others while the value is fetched.
theorem refresh_eq (key : CacheKey) (ttl : Span τ) (fetch : Op τ γ ν) :
    refresh key ttl fetch = (do
      let value ← Op.within Cached.rest (fun rest s => { s with rest }) fetch
      closing key ttl value : Op τ (Cached τ ν γ) ν) :=
  rfl

theorem getOrFetch_eq (key : Option CacheKey) (ttl : Span τ) (fetch : Op τ γ ν) :
    getOrFetch key ttl fetch = (do
      let found ← opening key ttl
      match found, key with
      | some value, _ => pure value
      | none, some key => refresh key ttl fetch
      | none, none => throw .wrongKind : Op τ (Cached τ ν γ) ν) := by
  simp only [getOrFetch, opening]
  split
  case isFalse => rfl
  case isTrue =>
    cases key
    case none => rfl
    case some key =>
      refine bind_congr fun found => ?_
      cases found
      all_goals rfl

theorem purge_eq : (purge : Op τ (Cached τ ν γ) Nat) = Op.now >>= sweep :=
  rfl

end

section

variable {τ ν α : Type}

-- What a section gives, and the cache that it leaves.
def locked (op : Op τ (Cached τ ν Unit) α) (time : τ) (c : Cache τ ν) : Result α × Cache τ ν :=
  let ((r, s), _) := op.answered (.standing time) ⟨c, ()⟩ ()
  (r, s.cache)

variable {c : Cache τ ν} {time : τ}

theorem locked_invalidate (value : Value) :
    locked (Cached.invalidate value) time c =
      match c.invalidate value with
      | .ok c' => (.ok (), c')
      | .error fault => (.error fault, c) := by
  simp only [locked, Cached.invalidate, Op.answered_bind, Op.answered_get, Op.answered_ofResult]
  cases c.invalidate value
  case ok => rfl
  case error => rfl

variable [Timeline τ] {ttl : Span τ}

variable (c time ttl) in
theorem locked_closing (key : CacheKey) (value : ν) :
    (∃ fault, ttl.duration = .error fault ∧ locked (closing key ttl value) time c = (.error fault, c)) ∨
      ∃ d r, ttl.duration = .ok d ∧ (∀ v, r = .ok v → v = value) ∧
        locked (closing key ttl value) time c = (r, c.store key value d time) := by
  cases lasting : ttl.duration
  case error fault =>
    refine .inl ⟨fault, rfl, ?_⟩
    simp only [locked, closing, Op.answered_bind, Op.answered_now, lasting, Op.answered_ofResult]
  case ok d =>
    refine .inr ⟨d, if key.isNonempty then .ok value else .error .noSuchPosition, rfl, fun v eq => ?_, ?_⟩
    · split at eq
      case isTrue => exact (Except.ok.inj eq).symm
      case isFalse => cases eq
    · simp only [locked, closing, Op.answered_bind, Op.answered_now, lasting, Op.answered_ofResult, modifyCache,
        Op.answered_modify]
      split
      all_goals rfl

theorem locked_sweep (now : τ) :
    locked (sweep now) time c = (.ok (c.expired now).length, c.removeAll (c.expired now)) := by
  simp only [locked, sweep, Op.answered_bind, Op.answered_get, modifyCache, Op.answered_modify]
  rfl

variable [Std.IsPreorder τ]

variable (c time ttl) in
theorem locked_opening (key : Option CacheKey) :
    (∃ fault, locked (opening key ttl) time c = (.error fault, c)) ∨
      ∃ known, key = some known ∧ ttl.isPositive = true ∧
        locked (opening key ttl) time c = (.ok (c.lookup known time), c.afterLookup known time) := by
  by_cases positive : ttl.isPositive = true
  case neg =>
    refine .inl ⟨.nonPositiveTtl, ?_⟩
    simp only [locked, opening, if_neg positive]
    rfl
  case pos =>
    cases key
    case none =>
      refine .inl ⟨.wrongKind, ?_⟩
      simp only [locked, opening, if_pos positive]
      rfl
    case some key =>
      refine .inr ⟨key, rfl, positive, ?_⟩
      simp only [locked, opening, if_pos positive, answered_lookup (Responder.ticks_standing time)]

end

end Cached
end SecretSync
