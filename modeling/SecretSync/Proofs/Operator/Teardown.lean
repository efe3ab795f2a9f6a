import SecretSync.Proofs.Guard.Release
import SecretSync.Proofs.Operator.Contained
import SecretSync.Proofs.Operator.Gone

/-!
Handling the body of a resource that is being deleted. Its secret is removed and its guard taken away, and
that is all: nothing is fetched, no secret is written, and if it all succeeds, nothing is left of the
resource. Main statement: `Operator.handle_tearsDown`.
-/

namespace SecretSync

open Table (Distinct)
open Cluster (HasMetadata IsNamed deletionTimestamp finalizers keyOf nameOf snapshotOf)

variable {τ σ κ : Type}

-- The calls by which a secret is removed and a guard taken away, and looking at the clock.
def Call.TearsDown (id : ResourceId) : Call τ → Prop
  | .cluster (.deleteSecret other) => other = id
  | .now => True
  | call => call.IsChange id (Guard.removal defaultFinalizer)

theorem Call.IsChange.tearsDown {id : ResourceId} {call : Call τ}
    (h : call.IsChange id (Guard.removal defaultFinalizer)) : call.TearsDown id := by
  cases call
  case cluster call =>
    cases call
    case getObject => exact h
    case patchObject => exact h
    all_goals exact h.elim
  all_goals exact h.elim

namespace Cluster

-- At most the secret of the resource is gone and its guard taken away, from what the body tells.
structure TearsDown (id : ResourceId) (body : Value) (c c' : Cluster) : Prop where
  secrets   : c'.secrets = c.secrets ∨ c'.secrets = c.secrets.remove id
  resources : Guard.Lessens id defaultFinalizer (snapshotOf body) c c'

-- The secret is gone, and the guard of the resource if the body told what there was of it.
structure TornDown (id : ResourceId) (body : Value) (c c' : Cluster) : Prop where
  secret   : c'.secrets.get? id = none
  resource : (∀ live, c.objects.get? id = some live → live = body) →
    Guard.Freed id defaultFinalizer (snapshotOf body) c c'

theorem TearsDown.refl (id : ResourceId) (body : Value) (c : Cluster) : TearsDown id body c c :=
  ⟨.inl rfl, fun _ _ => rfl, fun live found => ⟨live, found, fun _ => .inl⟩⟩

end Cluster

open Cluster (TearsDown TornDown)

variable {fails : Cluster → ClusterCall → Fault → Prop} {id : ResourceId} {body : Value}
  {members : Table Text Value} {w : World τ Cluster}

namespace Target

-- What is left of the secrets once one is gone.
structure Removed (id : ResourceId) (c c' : Cluster) : Prop where
  objects : c'.objects = c.objects
  secrets : c'.secrets = c.secrets ∨ c'.secrets = c.secrets.remove id
  absent  : c'.secrets.get? id = none

theorem Removed.tearsDown {c c' : Cluster} (h : Removed id c c') : TearsDown id body c c' :=
  ⟨h.secrets, fun _ _ => h.objects ▸ rfl, fun live found => ⟨live, h.objects ▸ found, fun _ => .inl⟩⟩

theorem Removed.isTidy {c c' : Cluster} (h : Removed id c c') (tidy : c.IsTidy) : c'.IsTidy where
  secrets := by
    cases h.secrets
    case inl same => exact same ▸ tidy.secrets
    case inr same => exact same ▸ tidy.secrets.remove id
  objects := h.objects ▸ tidy.objects
  fields found := tidy.fields (h.objects ▸ found)

variable (lacks : ∀ {c call fault}, fails c call fault → fault.status? = some 404 → Cluster.Lacks c call)
  (tidy : w.state.IsTidy)
include lacks tidy

theorem remove_removes {s : σ} :
    (remove id : Op τ σ Unit).Maintains (Cluster.api Eq fails) (TearsDown id body w.state) s w
      fun _ _ w' => Removed id w.state w'.state := by
  refine remove_maintains fun c same => ?_
  subst same
  refine ⟨.refl id body _, fun c' ⟨_, gone⟩ => ?_, fun _ failed missing => ⟨rfl, .inl rfl, lacks failed missing⟩⟩
  subst gone
  have removed : Removed id w.state { w.state with secrets := w.state.secrets.remove id } := by
    refine ⟨rfl, .inr rfl, ?_⟩
    simp [Table.get?_remove id id tidy.secrets]
  exact ⟨removed.tearsDown, removed⟩

end Target

namespace Reconcile

section

variable {d : Declaration} {m : Memory τ}
  (lacks : ∀ {c call fault}, fails c call fault → fault.status? = some 404 → Cluster.Lacks c call)
  (tidy : w.state.IsTidy) (metadata : HasMetadata body members) (snapshot : d.snapshot = snapshotOf body)
include lacks tidy metadata snapshot

theorem delete_tearsDown :
    (delete d id : Op τ (Memory τ) (Action τ)).Maintains (Cluster.api Eq fails) (TearsDown id body w.state) m w
      fun action _ w' => action = .awaitChange ∧ TornDown id body w.state w'.state := by
  apply Op.Maintains.bind (Target.remove_removes lacks tidy)
  intro _ m₁ w₁ _ removed
  have tidy₁ : w₁.state.IsTidy := removed.isTidy tidy
  -- Resources are as they were when the guard is taken away.
  have objects := removed.objects
  have released : (Guard.release id defaultFinalizer : Op τ Snapshot Bool).Maintains (Cluster.api Eq fails)
      (TearsDown id body w.state) d.snapshot w₁ fun _ _ w' => TornDown id body w.state w'.state := by
    rw [snapshot]
    have releases : (Guard.release id defaultFinalizer : Op τ Snapshot Bool).Maintains (Cluster.api Eq fails)
        (Guard.Undoes id defaultFinalizer (snapshotOf body) w₁.state) (snapshotOf body) w₁
        fun _ _ w' => Guard.Releases id defaultFinalizer (snapshotOf body) w₁.state w'.state :=
      Guard.release_releases lacks rfl
    have torn : (Guard.release id defaultFinalizer : Op τ Snapshot Bool).Maintains (Cluster.api Eq fails)
        (Guard.Undoes id defaultFinalizer (snapshotOf body) w₁.state) (snapshotOf body) w₁
        fun _ _ w' => TornDown id body w.state w'.state := by
      apply releases.mono
      intro _ _ w' undoes releases
      refine ⟨undoes.secrets_eq ▸ removed.absent, fun known => ?_⟩
      refine (releases.freed tidy₁ fun live found => ?_).of_objects_eq objects
      have same := known live (objects ▸ found)
      exact ⟨⟨members, same ▸ metadata⟩, same ▸ rfl⟩
    apply torn.weaken
    intro c undoes
    exact ⟨undoes.secrets_eq ▸ removed.secrets, (undoes.lessens tidy₁).of_objects_eq objects⟩
  exact .bind (changeGuard_maintains released) fun _ _ _ hw ⟨_, torn⟩ => .pure hw ⟨rfl, torn⟩

variable [Timeline τ] {settings : Settings τ}

theorem locked_tearsDown (named : d.id = .ok id) (deleting : d.isDeleting = true) :
    (locked settings d).Maintains (Cluster.api Eq fails) (TearsDown id body w.state) m w
      fun _ _ w' => TornDown id body w.state w'.state := by
  rw [locked_eq settings named, deleting]
  refine .bind (lock_maintains id (.refl id body _)) fun _ m₁ w₁ _ ⟨_, same⟩ => ?_
  subst same
  exact (delete_tearsDown lacks tidy metadata snapshot).mono fun _ _ _ _ => And.right

theorem reconcile_tearsDown (named : d.id = .ok id) (deleting : d.isDeleting = true) :
    (reconcile settings d).Maintains (Cluster.api Eq fails) (TearsDown id body w.state) m w
      fun _ _ w' => TornDown id body w.state w'.state :=
  .bind_modify (.bind (.attempt (locked_tearsDown lacks tidy metadata snapshot named deleting))
    fun _ _ _ hw torn => .bind_modify (.ofResult hw torn))

end

variable {d : Declaration} [Timeline τ] {settings : Settings τ}

theorem locked_asksTearDown (named : d.id = .ok id) (deleting : d.isDeleting = true) :
    (locked settings d).Asks (Call.TearsDown id) := by
  rw [locked_eq settings named, deleting]
  refine .bind (.modify _) fun _ => .bind (Target.remove_asks id rfl) fun _ => ?_
  have released := (Guard.release_asks (τ := τ) id defaultFinalizer).mono fun _ => Call.IsChange.tearsDown
  exact .bind (changeGuard_asks d released) fun _ => .pure _

end Reconcile

namespace Operator

variable [Timeline τ] {settings : Settings τ} {m m' : Memory τ} {w' : World τ Cluster}
  {r : Result (Action τ)}

-- Only a reconciliation that succeeds can have nothing more to do.
omit [Timeline τ] in
theorem conclude_awaits {api : Api κ} {P : κ → Prop} {v : World τ κ} (hw : P v.state)
    (done : Result (Action τ)) :
    (conclude settings done).Maintains api P m v fun action m' v' =>
      action = .awaitChange → (∃ a, done = .ok a) ∧ m' = m ∧ v' = v := by
  cases done
  case ok a => exact .pure hw fun _ => ⟨⟨a, rfl⟩, rfl, rfl⟩
  case error => exact .bind_modify (.bind_ofResult hw fun _ _ => .pure hw nofun)

-- What is told by a body that is marked.
theorem declaration_marked (metadata : HasMetadata body members) (named : IsNamed members)
    (marked : deletionTimestamp members ≠ .null) {d : Declaration} (readable : Declaration.ofBody body = .ok d) :
    d.id = .ok (keyOf members) ∧ d.isDeleting = true ∧ d.snapshot = snapshotOf body := by
  have ⟨told, deleting⟩ := metadata.reads.declaration readable
  have ⟨_, snapshot, _⟩ := metadata.declaration readable
  exact ⟨told.trans named.nameOf_eq, deleting.mpr marked, snapshot⟩

section

variable (metadata : HasMetadata body members) (named : IsNamed members)
  (marked : deletionTimestamp members ≠ .null)
include metadata named marked

theorem readAndReconcile_asksTearDown :
    (readAndReconcile settings body).Asks (Call.TearsDown (keyOf members)) := by
  cases readable : Declaration.ofBody body
  case error =>
    simp only [readAndReconcile, readable, Op.ofResult_error, Op.throw_bind]
    exact .throw _
  case ok d =>
    obtain ⟨told, deleting, _⟩ := declaration_marked metadata named marked readable
    simp only [readAndReconcile, readable, Op.ofResult_ok, pure_bind]
    have locked : (Reconcile.locked settings d).Asks (Call.TearsDown (keyOf members)) :=
      Reconcile.locked_asksTearDown told deleting
    exact .bind (.modify _) fun _ => .bind (.attempt locked) fun _ => .bind (.modify _) fun _ => .ofResult _

theorem handle_asksTearDown : (handle settings body).Asks (Call.TearsDown (keyOf members)) := by
  rw [handle_eq settings metadata.reads named.nameOf_eq]
  refine .bind (.attempt (readAndReconcile_asksTearDown metadata named marked)) fun done => ?_
  refine .bind ?_ fun action => .bind (schedule_asks trivial _ action) fun _ => .pure _
  cases done
  case ok => exact .pure _
  case error => exact failed_asks settings

variable (lacks : ∀ {c call fault}, fails c call fault → fault.status? = some 404 → Cluster.Lacks c call)
  (tidy : w.state.IsTidy)
include lacks tidy

theorem readAndReconcile_tearsDown :
    (readAndReconcile settings body).Maintains (Cluster.api Eq fails) (TearsDown (keyOf members) body w.state) m w
      fun _ _ w' => TornDown (keyOf members) body w.state w'.state := by
  refine .bind_ofResult (.refl _ body _) fun d readable => ?_
  have ⟨told, deleting, snapshot⟩ := declaration_marked metadata named marked readable
  exact Reconcile.reconcile_tearsDown lacks tidy metadata snapshot told deleting

variable (settings) in
theorem handle_tearsDown_run (distinct : Distinct m.due) :
    (handle settings body).Maintains (Cluster.api Eq fails) (TearsDown (keyOf members) body w.state) m w
      fun action m' w' => action = .awaitChange → TornDown (keyOf members) body w.state w'.state ∧
        m'.due.get? (keyOf members) = none ∧ ∀ other ∈ m'.locks, (other == keyOf members) = false := by
  have due : (readAndReconcile settings body).Leaves Memory.due := readAndReconcile_leavesAside Memory.aside_due
  have reconciled := (readAndReconcile_tearsDown metadata named marked lacks tidy).and
    ((due.ensures m w).mono (fun _ _ _ same => same) fun _ _ _ _ => trivial)
  rw [handle_eq settings metadata.reads named.nameOf_eq]
  refine .bind (.attempt reconciled) fun done m₁ w₁ hw reached => ?_
  refine .bind (conclude_awaits hw done) fun action m₂ w₂ hw awaits => ?_
  cases action
  case requeue after =>
    have outside := schedule_outside (keyOf members) (.requeue after : Action τ)
    exact .bind (outside.keeps (fun same held => same ▸ held) m₂ w₂ hw) fun _ _ _ hw _ => .pure hw nofun
  case awaitChange =>
    obtain ⟨⟨a, succeeds⟩, sameMemory, same⟩ := awaits rfl
    obtain ⟨torn, due⟩ := reached a succeeds
    subst sameMemory same
    have due : m₂.due = m.due := due
    have forgotten : (forget (keyOf members) : Op τ (Memory τ) Unit).Maintains (Cluster.api Eq fails)
        (TearsDown (keyOf members) body w.state) m₂ w₂ fun _ m' w' => w' = w₂ ∧
          m'.due.get? (keyOf members) = none ∧ ∀ other ∈ m'.locks, (other == keyOf members) = false := by
      refine .modify hw ⟨rfl, ?_, by simp⟩
      simp [due, Table.get?_remove _ _ distinct]
    exact .bind forgotten fun _ _ _ hw ⟨same, forgets⟩ => .pure hw fun _ => ⟨same ▸ torn, forgets⟩

end

-- Whatever the cluster replies, a body that is marked is only ever torn down, and nothing is remembered of
-- the resource once that has succeeded.
theorem handle_tearsDown
    (lacks : ∀ {c call fault}, fails c call fault → fault.status? = some 404 → Cluster.Lacks c call)
    (metadata : HasMetadata body members) (named : IsNamed members)
    (marked : deletionTimestamp members ≠ .null) (tidy : w.state.IsTidy) (distinct : Distinct m.due)
    (run : (handle settings body).Run (Cluster.api Eq fails) m w r m' w') :
    w.Through (fun step => step.call.TearsDown (keyOf members)) w' ∧
      w.Keeps (TearsDown (keyOf members) body w.state) w' ∧
      (r = .ok .awaitChange → TornDown (keyOf members) body w.state w'.state ∧
        m'.due.get? (keyOf members) = none ∧ ∀ other ∈ m'.locks, (other == keyOf members) = false) := by
  have tears := handle_tearsDown_run settings metadata named marked lacks tidy distinct
  refine ⟨(handle_asksTearDown metadata named marked).through run, tears.kept run, fun awaits => ?_⟩
  subst awaits
  exact (tears _ _ _ run).right rfl

-- Somebody else holds the resource, and an outdated body of it names no version.

def staleMetadata : Table Text Value :=
  [("name", "app"), ("deletionTimestamp", "2024-05-06T07:08:09Z"),
    ("finalizers", .list [Guard.foreignFinalizer, .text defaultFinalizer])]

def staleBody : Value := .object [("metadata", .object staleMetadata)]

def heldMetadata : Table Text Value := staleMetadata.put "resourceVersion" "1"

def heldBody : Value := .object [("metadata", .object heldMetadata)]

def heldCluster : Cluster := ⟨[(guardedId, ⟨none, none⟩)], [(guardedId, heldBody)]⟩

theorem isTidy_single {secret : Secret} {members : Table Text Value} (distinct : Distinct members) :
    Cluster.IsTidy ⟨[(guardedId, secret)], [(guardedId, .object [("metadata", .object members)])]⟩ := by
  refine ⟨⟨rfl, trivial⟩, ⟨rfl, trivial⟩, fun {id body fields} found metadata => ?_⟩
  obtain ⟨_, mem, _⟩ := Table.exists_mem_of_get? found
  cases List.mem_singleton.mp mem
  have held : HasMetadata (.object [("metadata", .object members)]) members := ⟨_, rfl, rfl⟩
  have same := held.metadata_eq.symm.trans metadata.metadata_eq
  exact Value.object.inj same ▸ distinct

-- What others have put there stays, if the body tells of it and nobody has changed the resource since.
variable (settings) in
theorem handle_frees {d : Declaration} {version live : Value} {fields : Table Text Value}
    (metadata : HasMetadata body members) (named : IsNamed members) (marked : deletionTimestamp members ≠ .null)
    (key : keyOf members = guardedId) (readable : Declaration.ofBody body = .ok d)
    (snapshot : d.snapshot = ⟨[Guard.foreignFinalizer, .text defaultFinalizer], version⟩)
    (fits : Cluster.Fits d.snapshot live) (held : HasMetadata live fields) :
    ∃ m' w' live', (handle settings body).Run Cluster.honest m
        ⟨⟨[(guardedId, ⟨none, none⟩)], [(guardedId, live)]⟩, []⟩ (.ok .awaitChange) m' w' ∧
      w'.state.objects.get? guardedId = some live' ∧ finalizers live' = [Guard.foreignFinalizer] := by
  have still : Cluster.honest.IsStill := fun _ => rfl
  have ⟨told, deleting, _⟩ := declaration_marked metadata named marked readable
  have removed : Cluster.Accepts ⟨[(guardedId, ⟨none, none⟩)], [(guardedId, live)]⟩ (.deleteSecret guardedId) ()
      ⟨[], [(guardedId, live)]⟩ := ⟨nofun, rfl⟩
  obtain ⟨live', released, listed⟩ : ∃ live', Cluster.Accepts ⟨[], [(guardedId, live)]⟩
      (.patchObject guardedId ((Guard.removal defaultFinalizer).patch d.snapshot)) .null
        ⟨[], [(guardedId, live')]⟩ ∧ finalizers live' = [Guard.foreignFinalizer] := by
    rw [snapshot] at fits ⊢
    refine ⟨_, ⟨live, "2", rfl, ?_, .kept⟩, Cluster.finalizers_patched held⟩
    simp only [Cluster.accepts, Guard.Change.patch]
    split
    case h_1 eq =>
      split at eq
      case isTrue given =>
        cases eq
        exact fits given
      case isFalse => cases eq
    case h_2 => rfl
  obtain ⟨m₂, w₂, reconciled, reached⟩ : ∃ m₂ w₂, (readAndReconcile settings body).Run Cluster.honest m
      ⟨⟨[(guardedId, ⟨none, none⟩)], [(guardedId, live)]⟩, []⟩ (.ok .awaitChange) m₂ w₂ ∧
        w₂.state = ⟨[], [(guardedId, live')]⟩ := by
    have known : hasFinalizer defaultFinalizer d.snapshot.finalizers = true := snapshot ▸ rfl
    rw [readAndReconcile, readable, Op.ofResult_ok, pure_bind, Reconcile.reconcile,
      Reconcile.locked_eq settings (told.trans (congrArg Except.ok key)), deleting]
    exact ⟨_, _, .bind (.modify _) (.bind (.attempt (.bind (.modify _)
      (.bind (Target.remove_runs still removed) (.bind (.bind (.on (Guard.release_runs still known released))
        (.ofResult (.ok true))) (.pure Action.awaitChange))))) (.bind (.modify _)
          (.ofResult (.ok Action.awaitChange)))), rfl⟩
  rw [handle_eq settings metadata.reads named.nameOf_eq]
  refine ⟨_, w₂, live',
    .bind (.attempt reconciled) (.bind (.pure Action.awaitChange) (.bind (.modify _) (.pure _))), ?_, listed⟩
  rw [reached]
  rfl

-- The guard goes, and what others have put there stays.
theorem handle_tearsDown_held : ∃ (m' : Memory Float) (w' : World Float Cluster) (live : Value),
    (handle Settings.default heldBody).Run Cluster.honest .start ⟨heldCluster, []⟩ (.ok .awaitChange) m' w' ∧
      w'.state.objects.get? guardedId = some live ∧ finalizers live = [Guard.foreignFinalizer] ∧
      TornDown guardedId heldBody heldCluster w'.state ∧ m'.due.get? guardedId = none := by
  have metadata : HasMetadata heldBody heldMetadata := ⟨_, rfl, rfl⟩
  have named : IsNamed heldMetadata := Cluster.isNamed_of_all rfl
  have marked : deletionTimestamp heldMetadata ≠ .null := nofun
  have ⟨d, readable, snapshot⟩ : ∃ d, Declaration.ofBody heldBody = .ok d ∧
      d.snapshot = ⟨[Guard.foreignFinalizer, .text defaultFinalizer], .text "1"⟩ := ⟨_, rfl, rfl⟩
  have fits : Cluster.Fits d.snapshot heldBody := snapshot ▸ fun _ => rfl
  have ⟨m', w', live, run, found, listed⟩ := handle_frees Settings.default (m := .start) metadata
    named marked rfl readable snapshot fits metadata
  have lacks {c : Cluster} {call : ClusterCall} {fault : Fault} (failed : c.Lacks call ∧ fault = Cluster.notFound)
      (_ : fault.status? = some 404) : c.Lacks call := failed.left
  have tidy : heldCluster.IsTidy := isTidy_single ⟨rfl, rfl, rfl, rfl, trivial⟩
  have distinct : Distinct (Memory.start : Memory Float).due := trivial
  have ⟨_, _, torn⟩ := handle_tearsDown lacks metadata named marked tidy distinct run
  have ⟨down, due, _⟩ := torn rfl
  exact ⟨m', w', live, run, found, listed, down, due⟩

-- A body that is marked can bring a finalizer: an outdated one that names no version is written as it is.
theorem not_listed_of_marked :
    ¬∀ (body : Value) (members : Table Text Value) (m m' : Memory Float) (w w' : World Float Cluster)
      (r : Result (Action Float)), HasMetadata body members → IsNamed members →
      deletionTimestamp members ≠ .null → w.state.IsTidy →
      (handle Settings.default body).Run Cluster.honest m w r m' w' →
      ∀ id live live', w.state.objects.get? id = some live → w'.state.objects.get? id = some live' →
        ∀ v ∈ finalizers live', v ∈ finalizers live := by
  intro claim
  have metadata : HasMetadata staleBody staleMetadata := ⟨_, rfl, rfl⟩
  have named : IsNamed staleMetadata := Cluster.isNamed_of_all rfl
  have marked : deletionTimestamp staleMetadata ≠ .null := nofun
  have ⟨d, readable, snapshot⟩ : ∃ d, Declaration.ofBody staleBody = .ok d ∧
      d.snapshot = ⟨[Guard.foreignFinalizer, .text defaultFinalizer], .null⟩ := ⟨_, rfl, rfl⟩
  have fits : Cluster.Fits d.snapshot deletedBody := snapshot ▸ nofun
  have held : HasMetadata deletedBody (guardedMetadata.put "deletionTimestamp" "2024-05-06T07:08:09Z") :=
    ⟨_, rfl, rfl⟩
  have ⟨m', w', live', run, found, listed⟩ := handle_frees Settings.default (m := .start) metadata
    named marked rfl readable snapshot fits held
  have tidy : deletedCluster.IsTidy := isTidy_single ⟨rfl, rfl, rfl, rfl, rfl, trivial⟩
  have mem := claim _ _ _ _ _ _ _ metadata named marked tidy run guardedId deletedBody live' rfl found
    Guard.foreignFinalizer (listed ▸ .head _)
  have before : finalizers deletedBody = [.text defaultFinalizer] := rfl
  rw [before] at mem
  exact absurd (Value.text.inj (List.mem_singleton.mp mem)) (by decide)

end Operator
end SecretSync
