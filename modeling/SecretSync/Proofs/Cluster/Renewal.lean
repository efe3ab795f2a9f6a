import SecretSync.Proofs.Cluster.Body

/-!
Bodies that others are made from by writing finalizers. They read the same, but for the finalizers and the
version. Main statement: `Renews.declaration`.
-/

namespace SecretSync.Cluster

-- `body'` comes from `body` by writing lists of finalizers, each time with a new version.
inductive Renews (body : Value) : Value → Prop
  | refl : Renews body body
  | patched {body' : Value} (h : Renews body body') (items : List Value) (version : Value) :
      Renews body (withVersion version (withFinalizers (some items) body'))

theorem member_setMember {name other : Text} (apart : (name == other) = false) (v body : Value) :
    (setMember name v body).member other = body.member other := by
  cases body
  case object members => simp [setMember, Value.member, Table.get?_put, apart]
  all_goals rfl

section

variable {body version : Value} {members : Table Text Value} {items : List Value}

theorem HasMetadata.member_eq (h : HasMetadata body members) :
    body.member metadataName = .ok (.object members) := by
  have ⟨_, eq, found⟩ := h
  simp [eq, Value.member, found]

theorem HasMetadata.deletion_patched {change : Option (List Value)} :
    (Value.object (patchedMetadata change version members)).member (Text.ofString "deletionTimestamp") =
      (Value.object members).member (Text.ofString "deletionTimestamp") := by
  simp only [Value.member]
  rw [get?_patchedMetadata (by decide) (by decide)]

theorem HasMetadata.isDeleting_patched (h : HasMetadata body members) {change : Option (List Value)} :
    isDeleting (withVersion version (withFinalizers change body)) = isDeleting body := by
  simp only [isDeleting, h.patched.metadata_eq, h.metadata_eq]
  rw [deletion_patched]

-- What a change of the finalizers writes is read, and nothing else has changed.
theorem HasMetadata.ofBody_patched (h : HasMetadata body members) {d : Declaration}
    (readable : Declaration.ofBody body = .ok d) :
    Declaration.ofBody (withVersion version (withFinalizers (some items) body)) =
      .ok { d with finalizers := items, resourceVersion := version } := by
  have given (v : Table Text Value) : (Value.object v).orEmpty = .object v := by
    cases v
    all_goals rfl
  have spec : (withVersion version (withFinalizers (some items) body)).member (Text.ofString "spec") =
      body.member (Text.ofString "spec") := by
    simp only [withVersion, withFinalizers]
    rw [member_setMember (by decide), member_setMember (by decide)]
  have versioned : (Value.object (patchedMetadata (some items) version members)).member versionName =
      .ok version := by
    simp only [Value.member, patchedMetadata, Table.get?_put_self, Option.getD_some]
  have listed : (Value.object (patchedMetadata (some items) version members)).member finalizersName =
      .ok (.list items) := by
    have apart : (versionName == finalizersName) = false := by decide
    simp [Value.member, patchedMetadata, Table.get?_put, apart]
  have written : (Value.list items).orEmpty.elements = .ok items := by
    cases items
    all_goals rfl
  simp only [Declaration.ofBody, h.member_eq, h.patched.member_eq, given, spec, deletion_patched, versioned,
    listed, written, nameOfBody_patchedMetadata, Result.bind_eq_ok_iff, Result.pure_eq_ok_iff,
    Except.ok.injEq, exists_eq_left'] at readable ⊢
  obtain ⟨_, specified, _, told, _, marked, _, named, _, resources, _, sources, _, description, _, _, _, _, _,
    _, eq⟩ := readable
  subst eq
  exact ⟨_, specified, _, told, _, marked, _, named, _, resources, _, sources, _, description, rfl⟩

end

namespace Renews

variable {body body' : Value} {members : Table Text Value} (held : HasMetadata body members)
include held

theorem hasMetadata (h : Renews body body') : ∃ members', HasMetadata body' members' := by
  induction h
  case refl => exact ⟨members, held⟩
  case patched hi =>
    have ⟨_, held'⟩ := hi
    exact ⟨_, held'.patched⟩

theorem isDeleting_eq (h : Renews body body') : isDeleting body' = isDeleting body := by
  induction h
  case refl => rfl
  case patched before _ _ hi =>
    have ⟨_, held'⟩ := before.hasMetadata held
    exact held'.isDeleting_patched.trans hi

theorem declaration (h : Renews body body') {d : Declaration}
    (readable : Declaration.ofBody body = .ok d) :
    ∃ d', Declaration.ofBody body' = .ok d' ∧ d'.id = d.id ∧ d'.sources = d.sources := by
  induction h
  case refl => exact ⟨d, readable, rfl, rfl⟩
  case patched before items version hi =>
    have ⟨_, held'⟩ := before.hasMetadata held
    have ⟨_, readable', id, sources⟩ := hi
    exact ⟨_, held'.ofBody_patched readable', id, sources⟩

end Renews

end SecretSync.Cluster
