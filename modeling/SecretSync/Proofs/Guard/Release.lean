import SecretSync.Proofs.Cluster.Writes
import SecretSync.Proofs.Guard.Edits

/-!
Taking a guard away. A list of finalizers without the guard is written at most once, and it is made from the
snapshot that is known or from the resource as it is. So nothing new is listed unless the snapshot tells it.
Main statements: `Guard.release_releases`, `Guard.Undoes.lessens`, `Guard.Releases.freed`.
-/

namespace SecretSync

open Cluster (Accepts HasMetadata finalizers snapshotOf)
open Table (Distinct)

namespace Cluster

-- What is known of a resource names no version, or the one that the resource has.
def Fits (s : Snapshot) (live : Value) : Prop :=
  s.resourceVersion.isGiven = true → s.resourceVersion.same (version live) = true

-- Whatever has a name has it once: secrets, resources and the fields of their metadata.
structure IsTidy (c : Cluster) : Prop where
  secrets : Distinct c.secrets
  objects : Distinct c.objects
  fields  : ∀ {id body members}, c.objects.get? id = some body → HasMetadata body members → Distinct members

section

variable {body version : Value} {members : Table Text Value} {change : Option (List Value)}

-- A body that has no metadata does not get any by a change to them.
theorem HasMetadata.of_setMember {f : Value → Value} (plain : ∀ v, (∀ members, v ≠ .object members) → f v = v)
    (h : HasMetadata (setMember metadataName (f (metadata body)) body) members) :
    ∃ fields, HasMetadata body fields := by
  cases told : metadata body
  case object fields => exact ⟨fields, .of_metadata told⟩
  all_goals
    rw [plain _ (fun members => by simp [told])] at h
    obtain ⟨outer, eq, found⟩ := h
    cases body
    case object =>
      simp only [setMember, Value.object.injEq] at eq
      rw [← eq, Table.get?_put_self, told] at found
      cases found
    all_goals cases eq

theorem HasMetadata.of_patched (h : HasMetadata (withVersion version (withFinalizers change body)) members) :
    ∃ fields, HasMetadata body fields := by
  have set (name : Text) (member v : Value) (other : ∀ members, v ≠ .object members) :
      setMember name member v = v := by
    cases v
    case object => exact absurd rfl (other _)
    all_goals rfl
  have remove (name : Text) (v : Value) (other : ∀ members, v ≠ .object members) : removeMember name v = v := by
    cases v
    case object => exact absurd rfl (other _)
    all_goals rfl
  have ⟨_, h⟩ := HasMetadata.of_setMember (set _ _) h
  cases change
  case none => exact HasMetadata.of_setMember (remove _) h
  case some => exact HasMetadata.of_setMember (set _ _) h

variable (version change) in
-- A body lists after a change what was asked for, or nothing if it has no metadata to list it in.
theorem finalizers_changed (distinct : ∀ {fields}, HasMetadata body fields → Distinct fields) :
    finalizers (withVersion version (withFinalizers change body)) = change.getD [] ∨
      finalizers (withVersion version (withFinalizers change body)) = [] ∧
        ∀ fields, ¬HasMetadata body fields := by
  by_cases held : ∃ fields, HasMetadata body fields
  case pos =>
    have ⟨_, held⟩ := held
    apply Or.inl
    cases change
    case none => exact finalizers_cleared held (distinct held)
    case some => exact finalizers_patched held
  case neg =>
    refine .inr ⟨?_, fun fields none => held ⟨fields, none⟩⟩
    apply List.eq_nil_iff_forall_not_mem.mpr
    exact fun v mem => held (hasMetadata_of_mem_finalizers mem).choose_spec.of_patched

end
end Cluster

namespace Guard

variable {τ : Type} {fails : Cluster → ClusterCall → Fault → Prop} {id : ResourceId} {finalizer : Text}
  {s base : Snapshot} {c c' : Cluster} {w : World τ Cluster}

-- The guard was taken from what the snapshot tells, or from what the resource was when it was read again.
def Writes (id : ResourceId) (finalizer : Text) (s : Snapshot) (c c' : Cluster) : Prop :=
  ∃ base told, (base = s ∨ ∃ live, c.objects.get? id = some live ∧ base = snapshotOf live) ∧
    Accepts c (.patchObject id ((removal finalizer).patch base)) told c'

-- Nothing has been written, or that.
def Undoes (id : ResourceId) (finalizer : Text) (s : Snapshot) (c c' : Cluster) : Prop :=
  c' = c ∨ Writes id finalizer s c c'

-- The ways in which a release succeeds.
inductive Releases (id : ResourceId) (finalizer : Text) (s : Snapshot) (c : Cluster) : Cluster → Prop
  | missing (missing : hasFinalizer finalizer s.finalizers = false) : Releases id finalizer s c c
  | gone (gone : c.objects.get? id = none) : Releases id finalizer s c c
  | written {c' : Cluster} (writes : Writes id finalizer s c c') : Releases id finalizer s c c'

-- A call that fails with a status has changed nothing.
def Refuses (id : ResourceId) (c : Cluster) (fault : Fault) (c' : Cluster) : Prop :=
  ∀ status, fault.status? = some status → c' = c ∧ (status = 404 → c.objects.get? id = none)

section

variable (lacks : ∀ {c call fault}, fails c call fault → fault.status? = some 404 → Cluster.Lacks c call)
include lacks

theorem write_writes (begins : w.state = c)
    (known : base = s ∨ ∃ live, c.objects.get? id = some live ∧ base = snapshotOf live) :
    (write id (removal finalizer) : Op τ Snapshot Unit).Ensures (Cluster.api Eq fails) base w
      (fun _ _ w' => w.Keeps (Undoes id finalizer s c) w' ∧ Writes id finalizer s c w'.state)
      fun fault _ w' => w.Keeps (Undoes id finalizer s c) w' ∧ Refuses id c fault w'.state := by
  subst begins
  simp only [write, Op.ensures_bind, Op.ensures_get, Op.ensures_modify]
  apply (Cluster.ensures_call _).mpr
  intro before same
  subst same
  constructor
  case left =>
    intro told after accepted
    have writes : Writes id finalizer s w.state after := ⟨base, told, known, accepted⟩
    have kept : w.Keeps (Undoes id finalizer s w.state) (w.next (.cluster (.patchObject id
        ((removal finalizer).patch base))) (.ok told) w.state after) := .next (.inl rfl) (.inr writes)
    apply (noteReply_fails told).mono
    case hok =>
      intro _ _ _ same
      subst same
      exact ⟨kept, writes⟩
    case hfail =>
      rintro _ _ _ ⟨same, statusless⟩
      subst same
      refine ⟨kept, fun _ refused => ?_⟩
      cases statusless.symm.trans refused
  case right =>
    intro fault failed
    refine ⟨.next (.inl rfl) (.inl rfl), fun status refused => ⟨rfl, fun missing => ?_⟩⟩
    exact lacks failed (missing ▸ refused)

theorem refresh_reads (begins : w.state = c) :
    (refresh id : Op τ Snapshot Unit).Ensures (Cluster.api Eq fails) base w
      (fun _ s' w' => w.Keeps (Undoes id finalizer s c) w' ∧ w'.state = c ∧
        ∃ live, c.objects.get? id = some live ∧ s' = snapshotOf live)
      fun fault _ w' => w.Keeps (Undoes id finalizer s c) w' ∧ Refuses id c fault w'.state := by
  subst begins
  rw [refresh_eq]
  apply Op.ensures_bind.mpr
  apply (Cluster.ensures_call _).mpr
  intro before same
  subst same
  constructor
  case left =>
    intro body after accepted
    have ⟨found, same⟩ := accepted
    subst same
    apply (noteBody_reads body).mono
    case hok =>
      intro _ _ _ ⟨same, snapshot⟩
      subst same
      exact ⟨.next (.inl rfl) (.inl rfl), rfl, body, found, snapshot⟩
    case hfail =>
      intro _ _ _ ⟨same, statusless⟩
      subst same
      exact ⟨.next (.inl rfl) (.inl rfl), fun _ refused => absurd (statusless.symm.trans refused) nofun⟩
  case right =>
    intro fault failed
    refine ⟨.next (.inl rfl) (.inl rfl), fun status refused => ⟨rfl, fun missing => ?_⟩⟩
    exact lacks failed (missing ▸ refused)

theorem change_writes (begins : w.state = c) :
    (Guard.change id (removal finalizer) : Op τ Snapshot Unit).Ensures (Cluster.api Eq fails) s w
      (fun _ _ w' => w.Keeps (Undoes id finalizer s c) w' ∧ Writes id finalizer s c w'.state)
      fun fault _ w' => w.Keeps (Undoes id finalizer s c) w' ∧ Refuses id c fault w'.state := by
  apply Op.ensures_bind.mpr
  apply (Op.ensures_attempt _).mpr
  apply (write_writes lacks begins (.inl rfl)).mono
  case hok => exact fun _ _ _ written => (Op.ensures_pure _).mpr written
  case hfail =>
    intro fault s₁ w₁ ⟨kept, refuses⟩
    simp only
    split
    case isFalse => exact (Op.ensures_throw fault).mpr ⟨kept, refuses⟩
    case isTrue conflict =>
      -- Nothing has changed so far, so what is read now is what there was in the beginning.
      apply Op.ensures_bind.mpr
      have begins := (refuses 409 conflict).left
      have read : (refresh id).Ensures (Cluster.api Eq fails) s₁ w₁ (fun _ s₂ w₂ =>
          w₁.Keeps (Undoes id finalizer s c) w₂ ∧ w₂.state = c ∧
            ∃ live, c.objects.get? id = some live ∧ s₂ = snapshotOf live) _ :=
        refresh_reads lacks begins
      apply read.mono
      case hfail => exact fun _ _ _ ⟨kept', refuses⟩ => ⟨kept.trans kept', refuses⟩
      intro _ s₂ w₂ ⟨kept₂, begins, known⟩
      apply (write_writes lacks begins (.inr known)).mono
      case hok => exact fun _ _ _ ⟨kept₃, writes⟩ => ⟨kept.trans (kept₂.trans kept₃), writes⟩
      case hfail => exact fun _ _ _ ⟨kept₃, refuses⟩ => ⟨kept.trans (kept₂.trans kept₃), refuses⟩

theorem release_releases (begins : w.state = c) :
    (release id finalizer : Op τ Snapshot Bool).Maintains (Cluster.api Eq fails) (Undoes id finalizer s c) s w
      fun _ _ w' => Releases id finalizer s c w'.state := by
  simp only [release, Op.Maintains, Op.ensures_bind, Op.ensures_get]
  split
  case isFalse missing =>
    apply (Op.ensures_pure _).mpr
    refine ⟨.refl (.inl begins), ?_⟩
    rw [begins]
    exact .missing (Bool.eq_false_iff.mpr missing)
  case isTrue =>
    apply Op.ensures_bind.mpr
    apply (Op.ensures_attempt _).mpr
    apply (change_writes lacks begins).mono
    case hok => exact fun _ _ _ ⟨kept, writes⟩ => (Op.ensures_pure _).mpr ⟨kept, .written writes⟩
    case hfail =>
      intro fault s₁ w₁ ⟨kept, refuses⟩
      simp only
      split
      case isFalse => exact (Op.ensures_throw fault).mpr kept
      case isTrue missing =>
        have ⟨same, gone⟩ := refuses 404 missing
        simp only [Op.ensures_bind, Op.ensures_modify, Op.ensures_pure]
        refine ⟨kept, ?_⟩
        rw [same]
        exact .gone (gone rfl)

end

theorem Change.patch_getD (change : Change) (s : Snapshot) :
    (change.patch s).finalizers.getD [] = change.apply s.finalizers := by
  rcases change.patch_finalizers s with ⟨none, empty⟩ | ⟨some, _⟩
  · rw [none, empty]
    rfl
  · rw [some]
    rfl

-- What was written, to a resource that it fits: what the snapshot lists without the guard.
structure Written (id : ResourceId) (finalizer : Text) (base : Snapshot) (live : Value) (c c' : Cluster) :
    Prop where
  found   : c.objects.get? id = some live
  fits    : Cluster.Fits base live
  others  : ∀ other, (id == other) = false → c'.objects.get? other = c.objects.get? other
  listed  : ∀ body, c'.objects.get? id = some body → finalizers body = removed finalizer base.finalizers ∨
    finalizers body = [] ∧ ∀ members, ¬HasMetadata live members
  dropped : c'.objects.get? id = none → removed finalizer base.finalizers = [] ∨
    ∀ members, ¬HasMetadata live members

theorem written_of_accepts {told : Value} (tidy : c.IsTidy)
    (accepted : Accepts c (.patchObject id ((removal finalizer).patch base)) told c') :
    ∃ live, Written id finalizer base live c c' := by
  obtain ⟨live, version, found, fits, stored⟩ := accepted
  have changed :=
    Cluster.finalizers_changed version ((removal finalizer).patch base).finalizers (tidy.fields found)
  rw [Change.patch_getD] at changed
  have fits : Cluster.Fits base live := fun given => by
    simpa [Cluster.accepts, Change.patch, given] using fits
  cases stored
  case kept =>
    refine ⟨live, found, fits, fun other apart => by simp [Table.get?_put, apart], ?_, ?_⟩
    all_goals simp only [Table.get?_put_self]
    case refine_1 =>
      intro body eq
      cases eq
      exact changed
    case refine_2 =>
      intro missing
      cases missing
  case dropped free =>
    rw [free] at changed
    refine ⟨live, found, fits, fun other apart => Table.get?_remove_of_ne apart, ?_, ?_⟩
    all_goals simp only [Cluster.removeObject, Table.get?_remove id id tidy.objects, BEq.rfl, if_true]
    case refine_1 =>
      intro body found
      cases found
    case refine_2 => exact fun _ => changed.imp Eq.symm And.right

-- Nothing is listed that was not listed before, unless the snapshot tells it of the resource as it is or of
-- no version at all.
structure Lessens (id : ResourceId) (finalizer : Text) (s : Snapshot) (c c' : Cluster) : Prop where
  others  : ∀ other, (id == other) = false → c'.objects.get? other = c.objects.get? other
  listed  : ∀ body, c'.objects.get? id = some body → ∃ live, c.objects.get? id = some live ∧
    ∀ v ∈ finalizers body, v ∈ finalizers live ∨
      v ∈ s.finalizers ∧ v ≠ .text finalizer ∧ Cluster.Fits s live

theorem Lessens.of_objects_eq {c₁ : Cluster} (h : Lessens id finalizer s c₁ c') (same : c₁.objects = c.objects) :
    Lessens id finalizer s c c' where
  others other apart := same ▸ h.others other apart
  listed body found := same ▸ h.listed body found

theorem mem_removed {v : Value} {items : List Value} :
    v ∈ removed finalizer items ↔ v ∈ items ∧ v ≠ .text finalizer := by
  rw [removed, List.mem_filter, Bool.not_eq_true', ← Bool.not_eq_true, Value.same_text_iff]

theorem removed_of_missing {items : List Value} (missing : hasFinalizer finalizer items = false) :
    removed finalizer items = items := by
  apply List.filter_eq_self.mpr
  intro v mem
  have apart := List.any_eq_false.mp missing v mem
  simpa using apart

theorem Undoes.secrets_eq (h : Undoes id finalizer s c c') : c'.secrets = c.secrets := by
  rcases h with same | ⟨_, _, _, accepted⟩
  · exact same ▸ rfl
  · exact accepted.secrets_eq (τ := Unit) trivial

theorem Undoes.lessens (h : Undoes id finalizer s c c') (tidy : c.IsTidy) : Lessens id finalizer s c c' := by
  rcases h with same | ⟨base, told, known, accepted⟩
  · subst same
    exact ⟨fun _ _ => rfl, fun body found => ⟨body, found, fun _ => .inl⟩⟩
  · have ⟨live, written⟩ := written_of_accepts tidy accepted
    refine ⟨written.others, fun body found => ⟨live, written.found, fun v mem => ?_⟩⟩
    rcases written.listed body found with listed | ⟨empty, _⟩
    · have ⟨mem, apart⟩ := mem_removed.mp (listed ▸ mem)
      rcases known with same | ⟨_, found, same⟩
      · subst same
        exact .inr ⟨mem, apart, written.fits⟩
      · -- What was read again is what there was.
        cases written.found.symm.trans found
        subst same
        exact .inl mem
    · rw [empty] at mem
      cases mem

open Classical in
-- What a release comes to that starts from the resource as it is: the other finalizers are listed as they
-- were, and the resource goes only if there are none.
structure Freed (id : ResourceId) (finalizer : Text) (s : Snapshot) (c c' : Cluster) : Prop where
  listed : ∀ body, c'.objects.get? id = some body →
    finalizers body = s.finalizers.filter fun v => v ≠ .text finalizer
  gone   : c'.objects.get? id = none →
    c.objects.get? id = none ∨ (s.finalizers.filter fun v => v ≠ .text finalizer) = []

theorem Freed.of_objects_eq {c₁ : Cluster} (h : Freed id finalizer s c₁ c') (same : c₁.objects = c.objects) :
    Freed id finalizer s c c' where
  listed := h.listed
  gone absent := same ▸ h.gone absent

theorem Releases.freed (h : Releases id finalizer s c c') (tidy : c.IsTidy)
    (known : ∀ live, c.objects.get? id = some live → (∃ members, HasMetadata live members) ∧
      s = snapshotOf live) : Freed id finalizer s c c' := by
  have removed_eq (items : List Value) : removed finalizer items = _ :=
    congrArg (fun change => change.apply items) (removal_eq finalizer)
  suffices (∀ body, c'.objects.get? id = some body → finalizers body = removed finalizer s.finalizers) ∧
      (c'.objects.get? id = none → c.objects.get? id = none ∨ removed finalizer s.finalizers = []) by
    rw [removed_eq] at this
    exact ⟨this.left, this.right⟩
  cases h
  case missing missing =>
    refine ⟨fun body found => ?_, .inl⟩
    have ⟨_, same⟩ := known body found
    rw [removed_of_missing missing, same]
    rfl
  case gone gone => exact ⟨fun body found => (nomatch gone.symm.trans found), .inl⟩
  case written writes =>
    obtain ⟨base, told, chosen, accepted⟩ := writes
    have ⟨live, done⟩ := written_of_accepts tidy accepted
    obtain ⟨⟨members, metadata⟩, same⟩ := known live done.found
    have same : base = s := by
      rcases chosen with same' | ⟨_, found, same'⟩
      · exact same'
      · cases done.found.symm.trans found
        exact same'.trans same.symm
    subst same
    constructor
    case left => exact fun body found => (done.listed body found).resolve_right fun h => h.right _ metadata
    case right => exact fun gone => .inr ((done.dropped gone).resolve_right fun h => h _ metadata)

end Guard
end SecretSync
