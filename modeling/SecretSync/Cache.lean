import SecretSync.Effect.Op
import SecretSync.Time.Span
import SecretSync.Value.Access

/-!
A cache of fetched values. An entry is served while the clock is below its expiry, which lies a time
to live after the moment at which the fetch was finished. Looking up, storing and sweeping are steps
of their own, so that a fetch runs between them with the cache open to others.
-/

namespace SecretSync

inductive CacheKey where
  | one (key : Key)
  | several (keys : List Key)

namespace CacheKey

def identity : CacheKey → Key.Identity ⊕ List Key.Identity
  | one key => .inl key.identity
  | several keys => .inr (keys.map Key.identity)

instance : BEq CacheKey := ⟨fun a b => a.identity = b.identity⟩

theorem beq_iff {a b : CacheKey} : (a == b) = true ↔ a.identity = b.identity := by
  simp [BEq.beq]

instance : EquivBEq CacheKey where
  rfl := beq_iff.2 rfl
  symm h := beq_iff.2 (beq_iff.1 h).symm
  trans h k := beq_iff.2 ((beq_iff.1 h).trans (beq_iff.1 k))

def ofValue? : Value → Option CacheKey
  | .list items => (items.mapM Value.key?).map several
  | v => v.key?.map one

-- Whether a cache key has a first part to show.
def isNonempty : CacheKey → Bool
  | several [] => false
  | _ => true

end CacheKey

structure CacheEntry (τ ν : Type) where
  value : ν
  expires : τ

abbrev Cache (τ ν : Type) := Table CacheKey (CacheEntry τ ν)

namespace Cache

variable {τ ν γ : Type} [Timeline τ]

def lookup (key : CacheKey) (time : τ) (c : Cache τ ν) : Option ν :=
  match c.get? key with
  | some entry => if time < entry.expires then some entry.value else none
  | none => none

-- The cache after a lookup: an entry that is not served any more is gone.
def afterLookup (key : CacheKey) (time : τ) (c : Cache τ ν) : Cache τ ν :=
  match c.get? key with
  | some entry => if time < entry.expires then c else c.remove key
  | none => c

def store (key : CacheKey) (value : ν) (ttl time : τ) (c : Cache τ ν) : Cache τ ν :=
  c.put key { value, expires := time + ttl }

def expired (time : τ) (c : Cache τ ν) : List CacheKey :=
  (c.filter fun (_, entry) => entry.expires ≤ time).map (·.1)

def removeAll (keys : List CacheKey) (c : Cache τ ν) : Cache τ ν :=
  keys.foldl (fun c key => c.remove key) c

-- Removes what a key stands for; no key at all stands for everything. A value that cannot be a key
-- is only noticed by a cache that has entries.
def invalidate (key : Value) (c : Cache τ ν) : Result (Cache τ ν) :=
  match key with
  | .null => .ok []
  | key =>
    if c.isEmpty then .ok c
    else do
      let key ← Result.ofOption .wrongKind (CacheKey.ofValue? key)
      pure (c.remove key)

end Cache

-- A state with a cache in it. Fetches work on the rest of the state only.
structure Cached (τ ν γ : Type) where
  cache : Cache τ ν
  rest : γ

namespace Cached

variable {τ ν γ : Type} [Timeline τ]

def modifyCache (f : Cache τ ν → Cache τ ν) : Op τ (Cached τ ν γ) Unit :=
  modify fun s => { s with cache := f s.cache }

-- Looks a key up, asking for the time only if there is an entry.
def lookup (key : CacheKey) : Op τ (Cached τ ν γ) (Option ν) := do
  if (← get).cache.has key then
    let time ← Op.now
    let found := (← get).cache.lookup key time
    modifyCache (Cache.afterLookup key time)
    pure found
  else pure none

-- Fetches a value and stores it. Nothing is stored if the fetch fails, or if the time to live is
-- unusable.
def refresh (key : CacheKey) (ttl : Span τ) (fetch : Op τ γ ν) : Op τ (Cached τ ν γ) ν := do
  let value ← Op.within Cached.rest (fun rest s => { s with rest }) fetch
  let time ← Op.now
  let ttl ← Op.ofResult ttl.duration
  modifyCache (Cache.store key value ttl time)
  if key.isNonempty then pure value else throw .noSuchPosition

def getOrFetch (key : Option CacheKey) (ttl : Span τ) (fetch : Op τ γ ν) :
    Op τ (Cached τ ν γ) ν := do
  if ttl.isPositive then
    match key with
    | none => throw .wrongKind
    | some key =>
      match ← lookup key with
      | some value => pure value
      | none => refresh key ttl fetch
  else throw .nonPositiveTtl

def purge : Op τ (Cached τ ν γ) Nat := do
  let time ← Op.now
  let expired := (← get).cache.expired time
  modifyCache (Cache.removeAll expired)
  pure expired.length

def invalidate (key : Value) : Op τ (Cached τ ν γ) Unit := do
  let cache ← Op.ofResult ((← get).cache.invalidate key)
  modifyCache fun _ => cache

end Cached

end SecretSync
