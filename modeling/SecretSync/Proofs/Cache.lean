import SecretSync.Cache
import SecretSync.Proofs.Effect.Record
import SecretSync.Proofs.Effect.Responder
import SecretSync.Proofs.Table

/-!
What a cache serves was stored under the same key, and its time is not up. If whatever is kept under a
key is what a fetch for that key gives, then looking up and fetching come to the same. Main statements:
`getOrFetch_computes`, `getOrFetch_ensures`.
-/

namespace SecretSync

namespace Cache

variable {τ ν : Type} [Timeline τ] {key : CacheKey} {time ttl : τ} {value : ν} {c : Cache τ ν}
  {entry : CacheKey × CacheEntry τ ν}

theorem exists_of_lookup (h : c.lookup key time = some value) :
    ∃ k entry, (k, entry) ∈ c ∧ (k == key) = true ∧ time < entry.expires ∧ entry.value = value := by
  simp only [lookup] at h
  split at h
  case h_1 entry found =>
    have ⟨k, mem, same⟩ := Table.exists_mem_of_get? found
    split at h
    case isTrue fresh => exact ⟨k, entry, mem, same, fresh, Option.some.inj h⟩
    case isFalse => cases h
  case h_2 => cases h

theorem mem_of_mem_afterLookup (h : entry ∈ c.afterLookup key time) : entry ∈ c := by
  simp only [afterLookup] at h
  split at h
  case h_1 =>
    split at h
    case isTrue => exact h
    case isFalse => exact Table.mem_of_mem_remove h
  case h_2 => exact h

theorem mem_store (h : entry ∈ c.store key value ttl time) :
    entry ∈ c ∨ entry.2 = ⟨value, time + ttl⟩ ∧ (entry.1 == key) = true := by
  rcases Table.mem_put h with mem | ⟨eq, new | ⟨same, _⟩⟩
  · exact .inl mem
  · exact .inr ⟨eq, new ▸ BEq.rfl⟩
  · exact .inr ⟨eq, same⟩

end Cache

namespace Cached

section

variable {τ ν γ ς : Type} [Timeline τ] {responder : Responder τ ς} {P : CacheKey → ν → Prop}
  {fits : γ → Prop} {calm : ς → Prop} {key : CacheKey} {ttl : Span τ} {fetch : Op τ γ ν} {r : Result ν}

-- `P` tells what may be kept under a key.
structure Trusted (P : CacheKey → ν → Prop) (fits : γ → Prop) (calm : ς → Prop) (s : Cached τ ν γ)
    (m : ς) : Prop where
  cache : ∀ entry ∈ s.cache, P entry.1 entry.2.value
  rest : fits s.rest
  calm : calm m

-- What a fetch comes to when its value is stored.
def stored (ttl : Span τ) (r : Result ν) : Result ν := do
  let value ← r
  let _ ← ttl.duration
  pure value

variable (now : ∀ m, calm m → calm (responder .now m).2)
include now

theorem lookup_comes (key : CacheKey) {s : Cached τ ν γ} {m : ς} (trusted : Trusted P fits calm s m) :
    ∃ found, (lookup key).Comes responder s m (.ok found) (Trusted P fits calm) ∧
      ∀ value, found = some value → ∃ k, (k == key) = true ∧ P k value := by
  simp only [lookup]
  cases known : s.cache.has key
  case false =>
    refine ⟨none, Op.Comes.get_bind ?_, nofun⟩
    rw [known]
    exact Op.Comes.pure trusted
  case true =>
    let time := (responder .now m).1
    refine ⟨s.cache.lookup key time, Op.Comes.get_bind ?_, fun value found => ?_⟩
    · have left : Trusted P fits calm { s with cache := s.cache.afterLookup key time } (responder .now m).2 :=
        ⟨fun entry mem => trusted.cache entry (Cache.mem_of_mem_afterLookup mem), trusted.rest,
          now m trusted.calm⟩
      rw [known]
      exact Op.Comes.now_bind (Op.Comes.get_bind (Op.Comes.modify_bind (Op.Comes.pure left)))
    · have ⟨k, entry, mem, same, _, eq⟩ := Cache.exists_of_lookup found
      exact ⟨k, same, eq ▸ trusted.cache _ mem⟩

theorem refresh_computes (fetched : fetch.Computes responder (fun p m => fits p ∧ calm m) r)
    (nonempty : key.isNonempty = true)
    (keeps : ∀ k value, stored ttl r = .ok value → (k == key) = true → P k value) :
    (refresh key ttl fetch).Computes responder (Trusted P fits calm) (stored ttl r) := by
  intro s m trusted
  apply (Op.Comes.within (fetched s.rest m ⟨trusted.rest, trusted.calm⟩)).bind
  case error =>
    intro fault failed
    subst failed
    refine ⟨rfl, fun s' m' ⟨p, eq, fits, calm⟩ => ?_⟩
    subst eq
    exact ⟨trusted.cache, fits, calm⟩
  case ok =>
    intro value gives s' m' ⟨p, eq, fits, calm⟩
    subst eq
    apply Op.Comes.now_bind
    apply Op.Comes.ofResult_bind
    case error =>
      intro fault unusable
      have failed : stored ttl r = .error fault := by
        rw [stored, gives, unusable]
        rfl
      exact ⟨failed, trusted.cache, fits, now _ calm⟩
    case ok =>
      intro d lasting
      have succeeded : stored ttl r = .ok value := by
        rw [stored, gives, lasting]
        rfl
      apply Op.Comes.modify_bind
      rw [if_pos nonempty, succeeded]
      refine Op.Comes.pure ⟨fun entry mem => ?_, fits, now _ calm⟩
      rcases Cache.mem_store mem with mem | ⟨eq, same⟩
      · exact trusted.cache entry mem
      · exact eq ▸ keeps entry.1 value succeeded same

theorem getOrFetch_computes (fetched : fetch.Computes responder (fun p m => fits p ∧ calm m) r)
    (nonempty : key.isNonempty = true) (positive : ttl.isPositive = true)
    (keeps : ∀ k value, (k == key) = true → (P k value ↔ stored ttl r = .ok value)) :
    (getOrFetch (some key) ttl fetch).Computes responder (Trusted P fits calm) (stored ttl r) := by
  intro s m trusted
  have ⟨found, looked, known⟩ := lookup_comes now key trusted
  simp only [getOrFetch, if_pos positive]
  apply looked.bind
  case ok =>
    intro _ eq s m trusted
    cases eq
    cases found
    case none =>
      have keeps (k : CacheKey) (value : ν) (h : stored ttl r = .ok value) (same : (k == key) = true) :=
        (keeps k value same).mpr h
      exact refresh_computes now fetched nonempty keeps s m trusted
    case some value =>
      have ⟨k, same, kept⟩ := known value rfl
      rw [(keeps k value same).mp kept]
      exact Op.Comes.pure trusted
  case error => nofun

end

section

variable {τ κ ν γ : Type} [Timeline τ] {api : Api κ} {key : CacheKey} {d : τ} {fetch : Op τ γ ν}
  {s : Cached τ ν γ} {w : World τ κ}

-- The value of a key, between `w` and `w'`: one that was kept, if the clock is below its expiry, or one
-- that is fetched.
inductive Told (api : Api κ) (fetch : Op τ γ ν) (key : CacheKey) (c : Cache τ ν) (value : ν)
    (w w' : World τ κ) : Prop
  | kept {k : CacheKey} {entry : CacheEntry τ ν} {time : τ} {state : κ} (mem : (k, entry) ∈ c)
      (same : (k == key) = true) (eq : entry.value = value) (fresh : time < entry.expires)
      (read : w' = w.next .now time state state)
  | fetched {v : World τ κ} {time : τ} (gave : fetch.Gave api value time v w') (after : w.Before v)

variable (fetch) in
theorem lookup_ensures :
    (lookup key : Op τ (Cached τ ν γ) _).Ensures api s w
      (fun found s' w' => s'.cache ⊆ s.cache ∧
        ∀ value, found = some value → Told api fetch key s.cache value w w')
      fun _ _ _ => False := by
  simp only [lookup, Op.ensures_bind, Op.ensures_get]
  split
  case isTrue =>
    simp only [Op.ensures_bind, Op.ensures_now, Op.ensures_get, modifyCache, Op.ensures_modify,
      Op.ensures_pure]
    intro time state _
    refine ⟨fun _ => Cache.mem_of_mem_afterLookup, fun value found => ?_⟩
    obtain ⟨k, entry, mem, same, fresh, eq⟩ := Cache.exists_of_lookup found
    exact .kept mem same eq fresh rfl
  case isFalse =>
    refine (Op.ensures_pure _).mpr ⟨fun _ => id, fun value impossible => ?_⟩
    cases impossible

theorem refresh_ensures (nonempty : key.isNonempty = true) :
    (refresh key (.lasting d) fetch).Ensures api s w
      (fun value s' w' => ∃ time, fetch.Gave api value time w w' ∧
        ∀ entry ∈ s'.cache, entry ∈ s.cache ∨ entry.2 = ⟨value, time + d⟩ ∧ (entry.1 == key) = true)
      fun _ s' _ => s'.cache = s.cache := by
  simp only [refresh, Op.ensures_bind, Op.ensures_within, if_pos nonempty]
  apply (Op.Ensures.of_run fetch s.rest w).mono
  case hok =>
    intro value p w₁ run
    apply Op.ensures_now.mpr
    intro time state _
    simp only [Span.duration_lasting, Op.ofResult_ok, modifyCache, Op.ensures_modify,
      Op.ensures_pure]
    exact ⟨time, ⟨s.rest, p, w₁, state, run, rfl⟩, fun _ => Cache.mem_store⟩
  case hfail => exact fun _ _ _ _ => trivial

-- A value was fetched now, or earlier under the same key.
theorem getOrFetch_ensures {key : Option CacheKey}
    (nonempty : ∀ known, key = some known → known.isNonempty = true) :
    (getOrFetch key (.lasting d) fetch).Ensures api s w
      (fun value s' w' => ∃ known, key = some known ∧ Told api fetch known s.cache value w w' ∧
        ∀ entry ∈ s'.cache, entry ∈ s.cache ∨ (entry.1 == known) = true ∧
          ∃ v time, fetch.Gave api value time v w' ∧ entry.2 = ⟨value, time + d⟩)
      fun _ s' _ => s'.cache ⊆ s.cache := by
  simp only [getOrFetch]
  split
  case isFalse => exact (Op.ensures_throw _).mpr fun _ => id
  case isTrue =>
    split
    case h_1 => exact (Op.ensures_throw _).mpr fun _ => id
    case h_2 known =>
      apply Op.ensures_bind.mpr
      apply ((Op.Ensures.of_run _ s w).and (lookup_ensures fetch)).mono
      case hfail => exact fun _ _ _ ⟨_, impossible⟩ => impossible.elim
      case hok =>
        intro found s₁ w₁ ⟨run, fewer, told⟩
        cases found
        case some value =>
          exact (Op.ensures_pure _).mpr ⟨known, rfl, told value rfl, fun _ mem => .inl (fewer mem)⟩
        case none =>
          apply (refresh_ensures (nonempty known rfl)).mono
          case hfail => exact fun _ _ _ same => same ▸ fewer
          case hok =>
            intro value s' w' ⟨time, gave, stored⟩
            refine ⟨known, rfl, .fetched gave run.before, fun entry mem => ?_⟩
            apply (stored entry mem).imp fun mem => fewer mem
            exact fun ⟨eq, same⟩ => ⟨same, w₁, time, gave, eq⟩

end

end Cached

end SecretSync
