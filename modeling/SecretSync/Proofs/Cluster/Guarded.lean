import SecretSync.Proofs.Cluster.Body

/-!
Clusters in which a secret is there only as long as its resource is, with the guard. The calls that may
end this are the creation of a secret and the removal of a guard; all others, and the changes of others
that spare the guard, keep it. Main statements: `Guarded.accepts`, `Guarded.foreign`.
-/

namespace SecretSync.Cluster

open Table (Distinct)

-- The resource is there and has the guard.
def IsGuarded (c : Cluster) (id : ResourceId) : Prop :=
  ∃ body, c.objects.get? id = some body ∧ .text defaultFinalizer ∈ finalizers body

structure Guarded (c : Cluster) : Prop where
  secrets : Distinct c.secrets
  objects : Distinct c.objects
  stored  : ∀ {id body}, c.objects.get? id = some body → Stored id body
  held    : ∀ {id}, c.secrets.get? id ≠ none → c.IsGuarded id

-- What others do to resources between two tasks: they make new ones, they edit them but spare the guard,
-- which includes asking for their deletion, and those without finalizers go.
inductive Foreign (c : Cluster) : Cluster → Prop
  | added {id : ResourceId} {body : Value} (free : c.objects.get? id = none)
      (stored : Stored id body) : Foreign c { c with objects := c.objects.put id body }
  | edited {id : ResourceId} {body body' : Value} (found : c.objects.get? id = some body)
      (stored : Stored id body')
      (spared : .text defaultFinalizer ∈ finalizers body' ↔ .text defaultFinalizer ∈ finalizers body) :
      Foreign c { c with objects := c.objects.put id body' }
  | dropped {id : ResourceId} {body : Value} (found : c.objects.get? id = some body)
      (free : finalizers body = []) : Foreign c (c.removeObject id)

-- What a call needs so that every secret still has a guarded resource after it.
def Spares (c : Cluster) : ClusterCall → Prop
  | .createSecret id _ => c.IsGuarded id
  | .patchObject id patch =>
    (∃ items, patch.finalizers = some items ∧ .text defaultFinalizer ∈ items) ∨
      c.secrets.get? id = none
  | _ => True

theorem IsGuarded.congr {c : Cluster} {id other : ResourceId} (h : c.IsGuarded id)
    (same : (id == other) = true) : c.IsGuarded other :=
  have ⟨body, found, guard⟩ := h
  ⟨body, Table.get?_congr same c.objects ▸ found, guard⟩

namespace Guarded

variable {c c' : Cluster} {id : ResourceId} {body : Value}

theorem putObject (h : c.Guarded) (stored : Stored id body)
    (guard : c.secrets.get? id ≠ none → .text defaultFinalizer ∈ finalizers body) :
    Guarded { c with objects := c.objects.put id body } where
  secrets := h.secrets
  objects := h.objects.put id body
  stored {other _} found := by
    simp only [Table.get?_put] at found
    split at found
    case isTrue same =>
      cases found
      exact stored.congr same
    case isFalse => exact h.stored found
  held {other} held := by
    simp only [IsGuarded, Table.get?_put]
    split
    case isTrue same =>
      refine ⟨body, rfl, guard ?_⟩
      rw [Table.get?_congr same]
      exact held
    case isFalse => exact h.held held

theorem removeObject (h : c.Guarded) (absent : c.secrets.get? id = none) :
    Guarded (c.removeObject id) where
  secrets := h.secrets
  objects := h.objects.remove id
  stored {other _} found := by
    simp only [Cluster.removeObject, Table.get?_remove id other h.objects] at found
    split at found
    case isTrue => cases found
    case isFalse => exact h.stored found
  held {other} held := by
    simp only [IsGuarded, Cluster.removeObject, Table.get?_remove id other h.objects]
    split
    case isTrue same =>
      refine absurd ?_ held
      rw [← Table.get?_congr same]
      exact absent
    case isFalse => exact h.held held

theorem stores (h : c.Guarded) (stored : Stored id body)
    (guard : c.secrets.get? id ≠ none → .text defaultFinalizer ∈ finalizers body)
    (stores : Stores id body c c') : c'.Guarded := by
  cases stores
  case kept => exact h.putObject stored guard
  case dropped deleting free =>
    -- No finalizers are left, so there was no secret to guard.
    refine h.removeObject (not_not.mp fun held => ?_)
    have := guard held
    simp [free] at this

theorem putSecret {s : Secret} (h : c.Guarded) (guarded : c.IsGuarded id) :
    Guarded (c.putSecret id s) where
  secrets := h.secrets.put id s
  objects := h.objects
  stored := h.stored
  held {other} held := by
    simp only [Cluster.putSecret, Table.get?_put] at held
    split at held
    case isTrue same => exact guarded.congr same
    case isFalse => exact h.held held

theorem removeSecret (h : c.Guarded) : Guarded { c with secrets := c.secrets.remove id } where
  secrets := h.secrets.remove id
  objects := h.objects
  stored := h.stored
  held {other} held := by
    simp only [Table.get?_remove id other h.secrets] at held
    split at held
    case isTrue => exact absurd rfl held
    case isFalse => exact h.held held

theorem foreign (h : c.Guarded) (change : Foreign c c') : c'.Guarded := by
  cases change
  case added free stored =>
    refine h.putObject stored fun held => ?_
    have ⟨_, found, _⟩ := h.held held
    simp [free] at found
  case edited found stored spared =>
    -- The guard was there before the edit, which spares it.
    refine h.putObject stored fun held => spared.mpr ?_
    have ⟨_, found', guard⟩ := h.held held
    rw [found] at found'
    cases found'
    exact guard
  case dropped found free =>
    refine h.removeObject (not_not.mp fun held => ?_)
    have ⟨_, found', guard⟩ := h.held held
    rw [found] at found'
    cases found'
    simp [free] at guard

theorem accepts {call : ClusterCall} {answer : call.Answer} (h : c.Guarded) (spares : Spares c call)
    (accepted : Accepts c call answer c') : c'.Guarded := by
  cases call
  case readSecret => exact accepted.right ▸ h
  case getObject => exact accepted.right ▸ h
  case createSecret => exact accepted.right ▸ h.putSecret spares
  case patchSecret =>
    have ⟨_, found, eq⟩ := accepted
    exact eq ▸ h.putSecret (h.held (by simp [found]))
  case deleteSecret => exact accepted.right ▸ h.removeSecret
  case patchObject id patch =>
    have ⟨body, version, found, _, stored⟩ := accepted
    refine h.stores ((h.stored found).patched patch.finalizers version) (fun held => ?_) stored
    -- As there is a secret, the list that is written has the guard.
    cases spares
    case inr absent => exact absurd absent held
    case inl guarding =>
      have ⟨items, eq, guard⟩ := guarding
      have ⟨_, _, metadata, _⟩ := h.stored found
      rw [eq, finalizers_patched metadata]
      exact guard

-- A resource has the guard once a list with it is accepted: it cannot be dropped with it.
theorem isGuarded_of_accepts {patch : ObjectPatch} {items : List Value} {told : Value} (h : c.Guarded)
    (list : patch.finalizers = some items) (guard : .text defaultFinalizer ∈ items)
    (accepted : Accepts c (.patchObject id patch) told c') : c'.IsGuarded id := by
  have ⟨body, version, found, _, stored⟩ := accepted
  have ⟨_, _, metadata, _⟩ := h.stored found
  have written : finalizers (withVersion version (withFinalizers patch.finalizers body)) = items :=
    list ▸ finalizers_patched metadata
  cases stored
  case kept => exact ⟨_, Table.get?_put_self .., written ▸ guard⟩
  case dropped free =>
    rw [← written, free] at guard
    cases guard

end Guarded

end SecretSync.Cluster
