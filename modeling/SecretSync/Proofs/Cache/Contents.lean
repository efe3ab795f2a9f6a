import SecretSync.Cache
import SecretSync.Proofs.Table

/-!
What a cache serves after each change to it. Times only go on, so an entry whose time is up may as well
be gone. Main statements: `lookup_afterLookup`, `lookup_purged`, `lookup_store`, `exists_invalidate`.
-/

namespace SecretSync

namespace Cache

-- Whether invalidating a value removes the entry of a key.
def clears (value : Value) (key : CacheKey) : Bool :=
  match value with
  | .null => true
  | value => (CacheKey.ofValue? value).any (· == key)

section

variable {τ ν : Type} {c : Cache τ ν}

theorem get?_removeAll (keys : List CacheKey) (other : CacheKey) (distinct : Table.Distinct c) :
    Table.get? other (c.removeAll keys) = if keys.any (· == other) then none else c.get? other := by
  induction keys generalizing c
  case nil => rfl
  case cons key keys hi =>
    rw [removeAll, List.foldl_cons, ← removeAll, hi (distinct.remove key),
      Table.get?_remove key other distinct, List.any_cons]
    cases key == other
    case true => simp
    case false => simp

theorem distinct_removeAll (keys : List CacheKey) (distinct : Table.Distinct c) :
    Table.Distinct (c.removeAll keys) := by
  induction keys generalizing c
  case nil => exact distinct
  case cons key keys hi => exact hi (distinct.remove key)

theorem clears_of_key {value : Value} {key : CacheKey} (notNull : value ≠ .null)
    (known : CacheKey.ofValue? value = some key) (other : CacheKey) :
    clears value other = (key == other) := by
  rw [clears, known]
  case x => exact notNull
  rfl

theorem invalidate_of_key {value : Value} {key : CacheKey} (notNull : value ≠ .null)
    (known : CacheKey.ofValue? value = some key) (c : Cache τ ν) :
    c.invalidate value = .ok (c.remove key) := by
  rw [invalidate]
  case x => exact notNull
  cases c
  case nil => rfl
  case cons =>
    rw [known]
    rfl

end

variable {τ ν : Type} [Timeline τ] {c : Cache τ ν} {time : τ}

theorem lookup_congr {key other : CacheKey} (same : (key == other) = true) (time : τ) (c : Cache τ ν) :
    c.lookup key time = c.lookup other time := by
  rw [lookup, Table.get?_congr same, ← lookup]

theorem lookup_store (key other : CacheKey) (value : ν) (ttl now time : τ) (c : Cache τ ν) :
    (c.store key value ttl now).lookup other time =
      if key == other then if time < now + ttl then some value else none else c.lookup other time := by
  rw [lookup, store, Table.get?_put]
  cases key == other
  all_goals rfl

-- The cache after a fetch that was finished at a time; one that failed leaves it as it is.
def afterFetch (key : CacheKey) (ttl finished : τ) (r : Result ν) (c : Cache τ ν) : Cache τ ν :=
  match r with
  | .ok value => c.store key value ttl finished
  | .error _ => c

theorem lookup_remove (key other : CacheKey) (time : τ) (distinct : Table.Distinct c) :
    Cache.lookup other time (c.remove key) = if key == other then none else c.lookup other time := by
  rw [lookup, Table.get?_remove key other distinct]
  cases key == other
  all_goals rfl

theorem distinct_afterLookup (key : CacheKey) (time : τ) (distinct : Table.Distinct c) :
    Table.Distinct (c.afterLookup key time) := by
  rw [afterLookup]
  split
  case h_1 =>
    split
    case isTrue => exact distinct
    case isFalse => exact distinct.remove key
  case h_2 => exact distinct

-- What a lookup drops is not served at that time.
theorem lookup_afterLookup_self (key other : CacheKey) (distinct : Table.Distinct c) :
    (c.afterLookup key time).lookup other time = c.lookup other time := by
  rw [afterLookup]
  split
  case h_1 entry found =>
    split
    case isTrue => rfl
    case isFalse dead =>
      rw [lookup_remove key other time distinct]
      split
      case isTrue same =>
        rw [← lookup_congr same, lookup, found]
        exact (if_neg dead).symm
      case isFalse => rfl
  case h_2 => rfl

-- Everything and any key can be invalidated.
theorem exists_invalidate {value : Value} (h : value = .null ∨ (CacheKey.ofValue? value).isSome = true)
    (distinct : Table.Distinct c) :
    ∃ c', c.invalidate value = .ok c' ∧ Table.Distinct c' ∧ ∀ other time,
      c'.lookup other time = if clears value other then none else c.lookup other time := by
  by_cases null : value = .null
  case pos =>
    subst null
    exact ⟨[], rfl, trivial, fun _ _ => rfl⟩
  case neg =>
    have ⟨key, known⟩ := Option.isSome_iff_exists.mp (h.resolve_left null)
    refine ⟨_, invalidate_of_key null known c, distinct.remove key, fun other time => ?_⟩
    rw [lookup_remove key other time distinct, clears_of_key null known]

variable [Std.IsLinearOrder τ] [Std.LawfulOrderLT τ] {now : τ}

theorem lookup_eq_none_of_expired {key : CacheKey} {entry : CacheEntry τ ν}
    (found : c.get? key = some entry) (expired : entry.expires ≤ time) : c.lookup key time = none := by
  rw [lookup, found]
  exact if_neg (Std.not_lt.mpr expired)

-- An entry that a lookup drops would not be served later on either.
theorem lookup_afterLookup (key other : CacheKey) (distinct : Table.Distinct c) (onward : now ≤ time) :
    (c.afterLookup key now).lookup other time = c.lookup other time := by
  rw [afterLookup]
  split
  case h_1 entry found =>
    split
    case isTrue => rfl
    case isFalse dead =>
      rw [lookup_remove key other time distinct]
      split
      case isTrue same =>
        rw [Table.get?_congr same] at found
        exact (lookup_eq_none_of_expired found (Std.le_trans (Std.not_lt.mp dead) onward)).symm
      case isFalse => rfl
  case h_2 => rfl

theorem lookup_purged (other : CacheKey) (distinct : Table.Distinct c) (onward : now ≤ time) :
    (c.removeAll (c.expired now)).lookup other time = c.lookup other time := by
  have removed := get?_removeAll (c.expired now) other distinct
  split at removed
  case isFalse => rw [lookup, removed, ← lookup]
  case isTrue some =>
    rw [lookup, removed]
    have ⟨k, swept, same⟩ := List.any_eq_true.mp some
    have ⟨entry, kept, eq⟩ := List.mem_map.mp swept
    have ⟨mem, dead⟩ := List.mem_filter.mp kept
    have found : c.get? other = .some entry.2 := by
      rw [← Table.get?_congr same, ← eq]
      exact Table.get?_of_mem distinct mem
    exact (lookup_eq_none_of_expired found (Std.le_trans (of_decide_eq_true dead) onward)).symm

end Cache

end SecretSync
