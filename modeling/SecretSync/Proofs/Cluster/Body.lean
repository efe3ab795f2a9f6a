import SecretSync.Proofs.Cluster.Api

/-!
Bodies that the cluster stores. A change of the finalizers of a resource and of its version leaves its
name alone, and the finalizers are those that were asked for. Main statements: `Stored.patched`,
`finalizers_patched`.
-/

namespace SecretSync

theorem Value.same_text_iff {t : Text} {v : Value} : same (.text t) v = true ↔ v = .text t := by
  cases v
  case text => simp [same, key?, eq_comm]
  case float x =>
    simp only [same, key?, reduceCtorEq, iff_false, Key.beq_iff]
    exact fun h => nomatch Key.eq_of_beq_text (Key.beq_iff.mpr h)
  all_goals simp [same, key?, BEq.beq, Key.identity]

theorem hasFinalizer_iff {finalizer : Text} {finalizers : List Value} :
    hasFinalizer finalizer finalizers = true ↔ .text finalizer ∈ finalizers := by
  simp [hasFinalizer, Value.same_text_iff]

theorem DeletionMark.isSome_of_ofValue? {v : Value} {mark : Option DeletionMark}
    (h : ofValue? v = .ok mark) :
    mark.isSome = match (.ok v : Result Value) with
      | .ok .null => false
      | .ok _ => true
      | .error _ => false := by
  cases v
  case text t =>
    simp only [ofValue?, Result.bind_eq_ok_iff, Result.pure_eq_ok_iff] at h
    obtain ⟨_, _, eq⟩ := h
    subst eq
    rfl
  all_goals
    cases h
    rfl

theorem DeletionMark.isSome_iff {v : Value} {mark : Option DeletionMark} (h : ofValue? v = .ok mark) :
    mark.isSome = true ↔ v ≠ .null := by
  rw [isSome_of_ofValue? h]
  cases v
  all_goals simp

theorem Guard.mem_added (finalizer : Text) (finalizers : List Value) :
    .text finalizer ∈ added finalizer finalizers := by
  simp only [added]
  split
  case isTrue h => exact hasFinalizer_iff.mp h
  case isFalse => simp

namespace Cluster

abbrev metadataName : Text := "metadata"

abbrev finalizersName : Text := "finalizers"

abbrev versionName : Text := "resourceVersion"

-- A body that is an object and has these metadata.
def HasMetadata (body : Value) (members : Table Text Value) : Prop :=
  ∃ outer : Table Text Value, body = .object outer ∧ outer.get? metadataName = some (.object members)

-- The same for a reader, who takes missing metadata for empty ones.
def ReadsMetadata (body : Value) (members : Table Text Value) : Prop :=
  ∃ outer : Table Text Value, body = .object outer ∧
    ((outer.get? metadataName).getD .null).orEmpty = .object members

def deletionTimestamp (members : Table Text Value) : Value :=
  (members.get? (Text.ofString "deletionTimestamp")).getD .null

-- The metadata with these finalizers, or without any, and with a version.
def patchedMetadata (change : Option (List Value)) (version : Value) (members : Table Text Value) :
    Table Text Value :=
  let changed : Table Text Value := match change with
    | some items => members.put finalizersName (.list items)
    | none => members.remove finalizersName
  changed.put versionName version

section

variable {body version : Value} {members : Table Text Value} {change : Option (List Value)}

theorem HasMetadata.metadata_eq (h : HasMetadata body members) : metadata body = .object members := by
  have ⟨_, eq, found⟩ := h
  simp [metadata, eq, Value.member, found]

theorem HasMetadata.of_metadata (h : metadata body = .object members) : HasMetadata body members := by
  cases body
  case object outer =>
    cases found : Table.get? metadataName outer
    case none => simp [metadata, Value.member, found] at h
    case some =>
      simp [metadata, Value.member, found] at h
      exact ⟨outer, rfl, h ▸ found⟩
  all_goals cases h

theorem HasMetadata.reads (h : HasMetadata body members) : ReadsMetadata body members := by
  have ⟨outer, eq, found⟩ := h
  refine ⟨outer, eq, ?_⟩
  rw [found]
  cases members
  all_goals rfl

theorem HasMetadata.replaced (h : HasMetadata body members) {others : Table Text Value} :
    HasMetadata (setMember metadataName (.object others) body) others := by
  have ⟨_, eq, _⟩ := h
  subst eq
  exact ⟨_, rfl, Table.get?_put_self ..⟩

theorem HasMetadata.patched (h : HasMetadata body members) :
    HasMetadata (withVersion version (withFinalizers change body))
      (patchedMetadata change version members) := by
  have changed : HasMetadata (withFinalizers change body) (match change with
      | some items => members.put finalizersName (.list items)
      | none => members.remove finalizersName) := by
    cases change
    all_goals
      simp only [withFinalizers, h.metadata_eq]
      exact h.replaced
  simp only [withVersion, changed.metadata_eq, setMember]
  exact changed.replaced

theorem get?_patchedMetadata {name : Text} (h₁ : (finalizersName == name) = false)
    (h₂ : (versionName == name) = false) :
    (patchedMetadata change version members).get? name = members.get? name := by
  simp only [patchedMetadata, Table.get?_put, h₂]
  cases change
  case none => exact Table.get?_remove_of_ne h₁
  case some => simp [Table.get?_put, h₁]

-- Removing the field of the finalizers leaves none, as names are distinct.
theorem get?_cleared (distinct : Table.Distinct members) :
    (patchedMetadata none version members).get? finalizersName = none := by
  have apart : (versionName == finalizersName) = false := by decide
  simp [patchedMetadata, Table.get?_put, apart, Table.get?_remove _ _ distinct]

theorem finalizers_cleared (h : HasMetadata body members) (distinct : Table.Distinct members) :
    finalizers (withVersion version (withFinalizers none body)) = [] := by
  simp only [finalizers, h.patched.metadata_eq, Value.member, get?_cleared distinct]
  rfl

theorem finalizers_patched (h : HasMetadata body members) {items : List Value} :
    finalizers (withVersion version (withFinalizers (some items) body)) = items := by
  have apart : (versionName == finalizersName) = false := by decide
  have found : (patchedMetadata (some items) version members).get? finalizersName =
      some (.list items) := by
    simp [patchedMetadata, Table.get?_put, apart]
  simp only [finalizers, h.patched.metadata_eq, Value.member, found]
  cases items
  all_goals rfl

end

-- What is known of the finalizers of a resource once a body of it was read.
def snapshotOf (body : Value) : Snapshot :=
  ⟨finalizers body, version body⟩

-- The name that metadata tell.
def nameOf (members : Table Text Value) : Result ResourceId := do
  let (name, namespaceName) ← Declaration.nameOfBody (.object members)
  (Declaration.nameOnly name namespaceName).id

-- The name and the namespace are texts, or left out.
def IsNamed (members : Table Text Value) : Prop :=
  ∀ name ∈ [Text.ofString "name", Text.ofString "namespace"], ∀ v, members.get? name = some v →
    ∃ t, v = .text t

theorem isNamed_of_all {members : Table Text Value}
    (h : ([Text.ofString "name", Text.ofString "namespace"].all fun name =>
      match members.get? name with
      | some (.text _) => true
      | none => true
      | _ => false) = true) : IsNamed members := by
  intro name mem v found
  have text := List.all_eq_true.mp h name mem
  rw [found] at text
  cases v
  case text t => exact ⟨t, rfl⟩
  all_goals cases text

-- The key of these metadata: an empty namespace is as good as none.
def keyOf (members : Table Text Value) : ResourceId where
  namespaceName := match members.get? (Text.ofString "namespace") with
    | some (.text (c :: cs)) => .text (c :: cs)
    | _ => .text "default"
  name := match members.get? (Text.ofString "name") with
    | some (.text t) => .text t
    | _ => .text []

theorem IsNamed.nameOf_eq {members : Table Text Value} (h : IsNamed members) :
    nameOf members = .ok (keyOf members) := by
  have name : ∃ t, (members.get? (Text.ofString "name")).getD (.text []) = .text t ∧
      (keyOf members).name = .text t := by
    simp only [keyOf]
    cases found : members.get? (Text.ofString "name")
    case none => exact ⟨[], rfl, rfl⟩
    case some v =>
      obtain ⟨t, eq⟩ := h _ (.head _) v found
      subst eq
      exact ⟨t, rfl, rfl⟩
  have space : ∃ t, ((members.get? (Text.ofString "namespace")).getD .null).orElse
      Declaration.defaultNamespace = .text t ∧ (keyOf members).namespaceName = .text t := by
    simp only [keyOf]
    cases found : members.get? (Text.ofString "namespace")
    case none => exact ⟨_, rfl, rfl⟩
    case some v =>
      obtain ⟨t, eq⟩ := h _ (.tail _ (.head _)) v found
      subst eq
      cases t
      all_goals exact ⟨_, rfl, rfl⟩
  obtain ⟨t, name, key⟩ := name
  obtain ⟨t', space, key'⟩ := space
  have id : keyOf members = ⟨.text t', .text t⟩ := by rw [← key, ← key']
  have told : Declaration.nameOfBody (.object members) = .ok (.text t, .text t') := by
    simp only [Declaration.nameOfBody, Value.memberOr, Value.member, name]
    exact congrArg (fun v => (.ok (Value.text t, v) : Result _)) space
  rw [nameOf, told, id]
  rfl

theorem IsNamed.exists_nameOf {members : Table Text Value} (h : IsNamed members) :
    ∃ id, nameOf members = .ok id :=
  ⟨keyOf members, h.nameOf_eq⟩

theorem ReadsMetadata.declaration {body : Value} {members : Table Text Value}
    (h : ReadsMetadata body members) {d : Declaration} (readable : Declaration.ofBody body = .ok d) :
    d.id = nameOf members ∧ (d.isDeleting = true ↔ deletionTimestamp members ≠ .null) := by
  obtain ⟨outer, eq, found⟩ := h
  simp only [Declaration.ofBody, eq, Value.member, found, Result.bind_eq_ok_iff, Result.pure_eq_ok_iff,
    Except.ok.injEq, exists_eq_left'] at readable
  obtain ⟨_, mark, _, nameOk, _, _, _, _, _, _, _, _, declared⟩ := readable
  subst declared
  constructor
  case left =>
    simp only [nameOf, nameOk]
    rfl
  case right => exact DeletionMark.isSome_iff mark

theorem HasMetadata.declaration {body : Value} {members : Table Text Value} (h : HasMetadata body members)
    {d : Declaration} (readable : Declaration.ofBody body = .ok d) :
    d.id = nameOf members ∧ d.snapshot = snapshotOf body ∧ d.isDeleting = isDeleting body := by
  obtain ⟨outer, eq, found⟩ := h
  have given (v : Table Text Value) : (Value.object v).orEmpty = .object v := by
    cases v
    all_goals rfl
  simp only [Declaration.ofBody, eq, Value.member, found, Option.getD_some, given,
    Result.bind_eq_ok_iff, Result.pure_eq_ok_iff, Except.ok.injEq, exists_eq_left'] at readable
  obtain ⟨_, mark, _, nameOk, _, _, _, _, _, _, _, listed, declared⟩ := readable
  subst declared
  refine ⟨?_, ?_, ?_⟩
  · simp only [nameOf, nameOk]
    rfl
  · simp [Declaration.snapshot, snapshotOf, finalizers, version, metadata, eq, Value.member, found,
      Except.bind, listed]
  · simp only [isDeleting, metadata, eq, Value.member, found, Option.getD_some]
    exact DeletionMark.isSome_of_ofValue? mark

-- A body as the cluster stores it for a resource: it tells the name of the resource.
def Stored (id : ResourceId) (body : Value) : Prop :=
  ∃ members own, HasMetadata body members ∧ nameOf members = .ok own ∧ (own == id) = true

section

variable {members : Table Text Value} {change : Option (List Value)} {version : Value}

theorem nameOfBody_patchedMetadata :
    Declaration.nameOfBody (.object (patchedMetadata change version members)) =
      Declaration.nameOfBody (.object members) := by
  have name : (patchedMetadata change version members).get? (Text.ofString "name") = _ :=
    get?_patchedMetadata (by decide) (by decide)
  have namespaceName : (patchedMetadata change version members).get? (Text.ofString "namespace") = _ :=
    get?_patchedMetadata (by decide) (by decide)
  simp only [Declaration.nameOfBody, Value.memberOr, Value.member, name, namespaceName]

theorem nameOf_patchedMetadata : nameOf (patchedMetadata change version members) = nameOf members := by
  simp only [nameOf, nameOfBody_patchedMetadata]

end

namespace Stored

variable {id other : ResourceId} {body : Value}

theorem patched (h : Stored id body) (change : Option (List Value)) (version : Value) :
    Stored id (withVersion version (withFinalizers change body)) :=
  have ⟨_, own, held, named, same⟩ := h
  ⟨_, own, held.patched, nameOf_patchedMetadata.trans named, same⟩

theorem congr (h : Stored id body) (same : (id == other) = true) : Stored other body :=
  have ⟨members, own, held, named, eq⟩ := h
  ⟨members, own, held, named, BEq.trans eq same⟩

-- What a declaration read from a stored body tells.
theorem declaration (h : Stored id body) {d : Declaration} (readable : Declaration.ofBody body = .ok d) :
    (∃ own, d.id = .ok own ∧ (own == id) = true) ∧ d.snapshot = snapshotOf body := by
  have ⟨_, own, held, named, same⟩ := h
  have ⟨told, snapshot, _⟩ := held.declaration readable
  exact ⟨⟨own, told.trans named, same⟩, snapshot⟩

end Stored
end Cluster

end SecretSync
