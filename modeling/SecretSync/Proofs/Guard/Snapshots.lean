import SecretSync.Proofs.Cluster.Body

/-!
What the body of a resource tells of its finalizers. A body that is read again gives the snapshot of it, and a
body that cannot be read is no refusal by the cluster. Main statements: `noteBody_reads`, `noteReply_fails`.
-/

namespace SecretSync.Guard

open Cluster (finalizers snapshotOf)

variable {τ κ : Type} {api : Api κ} {s : Snapshot} {w : World τ κ}

theorem member_status? {v : Value} {name : Text} {fault : Fault} (h : v.member name = .error fault) :
    fault.status? = none := by
  cases v
  case object => cases h
  all_goals
    cases h
    rfl

theorem elements_status? {v : Value} {fault : Fault} (h : v.elements = .error fault) :
    fault.status? = none := by
  cases v
  case list | text | object | bytes => cases h
  all_goals
    cases h
    rfl

-- An answer that cannot be read is no refusal.
theorem noteReply_fails (reply : Value) :
    (noteReply reply : Op τ Snapshot Unit).Ensures api s w (fun _ _ w' => w' = w)
      fun fault _ w' => w' = w ∧ fault.status? = none := by
  cases reply
  case object members =>
    apply Op.Ensures.bind_ofResult
    case hfail => nofun
    intro metadata _
    apply Op.Ensures.bind_ofResult
    case hfail => exact fun fault lacking => ⟨rfl, member_status? lacking⟩
    exact fun _ _ => (Op.ensures_modify _).mpr rfl
  all_goals exact (Op.ensures_pure _).mpr rfl

-- What is learned from the body of a resource that was read again.
def noteBody (body : Value) : Op τ Snapshot Unit := do
  let metadata ← Op.ofResult (metadataOf body)
  let finalizers ← Op.ofResult (do (← metadata.member "finalizers").orEmpty.elements)
  modify ({ · with finalizers })
  let resourceVersion ← Op.ofResult (metadata.member "resourceVersion")
  modify ({ · with resourceVersion })

theorem refresh_eq (id : ResourceId) :
    (refresh id : Op τ Snapshot Unit) = Op.cluster (.getObject id) >>= noteBody :=
  rfl

theorem member_of_orEmpty {v field : Value} {name : Text} (h : v.orEmpty.member name = .ok field) :
    v.member name = .ok field ∨ field = .null ∧ v.member name = .error .lacksOperation := by
  have read : v.orEmpty = v ∨ v.orEmpty = .object [] := by
    simp only [Value.orEmpty, Value.orElse]
    split
    case isTrue => exact .inl rfl
    case isFalse => exact .inr rfl
  cases read
  case inl same => exact .inl (same ▸ h)
  case inr empty =>
    rw [empty] at h
    cases h
    cases v
    case object members =>
      cases members
      case nil => exact .inl rfl
      case cons => cases empty
    all_goals exact .inr ⟨rfl, rfl⟩

-- Metadata that are missing, or not an object, are read like those without any field.
theorem snapshotOf_eq {body metadata version : Value} {items : List Value}
    (read : metadataOf body = .ok metadata)
    (listed : (do (← metadata.member "finalizers").orEmpty.elements : Result _) = .ok items)
    (told : metadata.member "resourceVersion" = .ok version) : snapshotOf body = ⟨items, version⟩ := by
  obtain ⟨v, eq, same⟩ : ∃ v, Cluster.metadata body = v ∧ metadata = v.orEmpty := by
    cases found : body.member "metadata"
    case error =>
      rw [metadataOf, found] at read
      cases read
    case ok v =>
      rw [metadataOf, found] at read
      cases read
      exact ⟨v, by simp [Cluster.metadata, found], rfl⟩
  subst same
  have listed : finalizers body = items := by
    simp only [finalizers, eq]
    cases found : v.orEmpty.member "finalizers"
    case error =>
      rw [found] at listed
      cases listed
    case ok field =>
      rw [found] at listed
      rcases member_of_orEmpty found with same | ⟨null, lacking⟩
      · rw [same]
        have listed : field.orEmpty.elements = .ok items := listed
        simp only [Except.bind, listed]
      · subst null
        cases listed
        rw [lacking]
        rfl
  have told : Cluster.version body = version := by
    simp only [Cluster.version, eq]
    rcases member_of_orEmpty told with same | ⟨null, lacking⟩
    · rw [same]
    · rw [lacking, null]
  simp only [snapshotOf, listed, told]

theorem noteBody_reads (body : Value) :
    (noteBody body : Op τ Snapshot Unit).Ensures api s w (fun _ s' w' => w' = w ∧ s' = snapshotOf body)
      fun fault _ w' => w' = w ∧ fault.status? = none := by
  apply Op.Ensures.bind_ofResult
  case hfail =>
    intro fault failed
    cases lacking : body.member "metadata"
    case error =>
      rw [metadataOf, lacking] at failed
      cases failed
      exact ⟨rfl, member_status? lacking⟩
    case ok =>
      rw [metadataOf, lacking] at failed
      cases failed
  intro metadata read
  apply Op.Ensures.bind_ofResult
  case hfail =>
    intro fault failed
    cases lacking : metadata.member "finalizers"
    case error =>
      rw [lacking] at failed
      cases failed
      exact ⟨rfl, member_status? lacking⟩
    case ok v =>
      rw [lacking] at failed
      exact ⟨rfl, elements_status? failed⟩
  intro items listed
  apply Op.ensures_bind.mpr
  apply (Op.ensures_modify _).mpr
  apply Op.Ensures.bind_ofResult
  case hfail => exact fun fault lacking => ⟨rfl, member_status? lacking⟩
  intro version told
  exact (Op.ensures_modify _).mpr ⟨rfl, (snapshotOf_eq read listed told).symm⟩

end SecretSync.Guard
