import SecretSync.Proofs.Operator.Concluding
import SecretSync.Proofs.Operator.Course
import SecretSync.Proofs.Operator.Making

/-!
A handling does all or nothing to the secret, whichever of its calls are refused. The guard stays as long
as there is a secret, and a failure is counted, writes nothing and is followed by another try. Main
statement: `handle_atomic`.
-/

namespace SecretSync

open Table (Distinct)
open Cluster (HasMetadata IsNamed nameOf)

namespace Operator

variable {τ : Type} [Timeline τ]

section

variable {settings : Settings τ} {fails : Cluster → ClusterCall → Fault → Prop} {m : Memory τ}
  {w w₁ w' : World τ Cluster} {body : Value} {members : Table Text Value} {id : ResourceId} {soon late : τ}

-- The secret is as it was, or holds what was put together, or is gone, after at most one write.
structure Fate (fails : Cluster → ClusterCall → Fault → Prop) (settings : Settings τ) (body : Value)
    (id : ResourceId) (session : Session τ) (w w' : World τ Cluster) : Prop where
  secret : w'.state.secrets.get? id = w.state.secrets.get? id ∨
    (Cluster.isDeleting body = false ∧ ∃ d content s, Declaration.ofBody body = .ok d ∧
      Composed (Cluster.api Eq fails) settings d session w w' (.ok content) ∧
      w'.state.secrets.get? id = some s ∧ s.HoldsJust content) ∨
    (Cluster.isDeleting body = true ∧ w'.state.secrets.get? id = none)
  guard  : w.state.IsGuarded id → w'.state.secrets.get? id ≠ none → w'.state.IsGuarded id
  single : w'.fills + w'.removals ≤ w.fills + w.removals + 1

namespace Fate

theorem of_still {session : Session τ} (still : w.Still w') :
    Fate fails settings body id session w w' where
  secret := .inl (by rw [still.secrets])
  guard held _ := still.guard held
  single := by simp [still.fills, still.removals]

theorem of_emptied {session : Session τ} (deleting : Cluster.isDeleting body = true)
    (emptied : w.Emptied id w') : Fate fails settings body id session w w' where
  secret := .inr (.inr ⟨deleting, emptied.secret⟩)
  guard _ present := absurd emptied.secret present
  single := by
    have fills := emptied.fills
    have removals := emptied.removals
    omega

theorem of_filled {session : Session τ} {d : Declaration} {content : Content}
    (kept : Cluster.isDeleting body = false) (readable : Declaration.ofBody body = .ok d)
    (composed : Composed (Cluster.api Eq fails) settings d session w w' (.ok content))
    (filled : w.Filled id content w') : Fate fails settings body id session w w' where
  secret :=
    have ⟨s, live, holds⟩ := filled.secret
    .inr (.inl ⟨kept, d, content, s, readable, composed, live, holds⟩)
  guard held _ := filled.guard held
  single := by simp [filled.fills, filled.removals, Nat.add_right_comm]

-- A failure left the secret as it was, or came after its removal.
theorem of_failed {session : Session τ} (last : w₁.Still w')
    (failed : w.Still w₁ ∨ (Cluster.isDeleting body = true ∧ w.Emptied id w₁)) :
    Fate fails settings body id session w w' ∧ w'.fills = w.fills := by
  cases failed
  case inl still => exact ⟨of_still (still.trans last), last.fills.trans still.fills⟩
  case inr removed =>
    have ⟨deleting, emptied⟩ := removed
    exact ⟨of_emptied deleting (emptied.still last.toUnwritten), last.fills.trans emptied.fills⟩

theorem of_achieved {session : Session τ} {d : Declaration} {action : Action τ} {m₂ m₃ : Memory τ}
    (metadata : HasMetadata body members) (readable : Declaration.ofBody body = .ok d)
    (achieved : Reconcile.Achieved (Cluster.api Eq fails) settings d id session soon w action w₁)
    (scheduling : (schedule id action).Run (Cluster.api Eq fails) m₂ w₁ (.ok ()) m₃ w') :
    Fate fails settings body id session w w' := by
  have last : w₁.Still w' := (schedule_outside id action).still scheduling
  have ⟨_, _, deleting⟩ := metadata.declaration readable
  cases achieved
  case removed isDeleting emptied =>
    exact of_emptied (deleting.symm.trans isDeleting) (emptied.still last.toUnwritten)
  case written kept fitted =>
    have ⟨content, composed, ensured⟩ := fitted
    cases ensured
    case unchanged still _ _ => exact of_still (still.trans last)
    case written filled =>
      have leaves := schedule_ensures _ _ _ _ scheduling
      have ⟨step, now, steps⟩ := leaves.right soon rfl
      have composed : Composed (Cluster.api Eq fails) settings d session w w' (.ok content) :=
        ⟨w₁, step, composed, now, steps⟩
      exact of_filled (deleting.symm.trans kept) readable composed (filled.still last)

end Fate

-- What is left of a handling, however many of its calls were refused. Nothing comes after reading and reconciling
-- but that the next reconciliation is scheduled, and a failure in them has not filled the secret.
structure Atomic (fails : Cluster → ClusterCall → Fault → Prop) (settings : Settings τ) (body : Value)
    (id : ResourceId) (late : τ) (m : Memory τ) (w : World τ Cluster) (action : Action τ) (m' : Memory τ)
    (w' : World τ Cluster) : Prop extends Fate fails settings body id m.session w w' where
  course : ∃ done m₁ w₁ m₂, (readAndReconcile settings body).Run (Cluster.api Eq fails) m w done m₁ w₁ ∧
    (schedule id action).Run (Cluster.api Eq fails) m₂ w₁ (.ok ()) m' w' ∧
    (∀ a, done = .ok a → action = a ∧ m'.failures = m.failures) ∧
    ∀ fault, done = .error fault →
      action = .requeue late ∧ m'.failures = m.failures + 1 ∧ w'.fills = w.fills

variable (metadata : HasMetadata body members) (named : nameOf members = .ok id)
include metadata named

section

variable (lasts : settings.Lasts soon late) (secrets : Distinct w.state.secrets)
  (data : ∀ id s, w.state.secrets.get? id = some s → s.IsDistinct)
  (lacks : ∀ {c call fault}, fails c call fault → fault.status? = some 404 → Cluster.Lacks c call)
include lasts secrets data lacks

theorem readAndReconcile_ensures :
    (readAndReconcile settings body).Ensures (Cluster.api Eq fails) m w
      (fun action _ w' => ∃ d, Declaration.ofBody body = .ok d ∧
        Reconcile.Achieved (Cluster.api Eq fails) settings d id m.session soon w action w')
      fun _ _ w' => w.Still w' ∨ (Cluster.isDeleting body = true ∧ w.Emptied id w') := by
  refine .bind_ofResult (fun d readable => ?_) fun _ _ => .inl (.refl w)
  have ⟨told, _, deleting⟩ := metadata.declaration readable
  refine (Reconcile.reconcile_ensures secrets lacks lasts.success (data id) (told.trans named)).mono ?_ ?_
  · exact fun _ _ _ achieved => ⟨d, readable, achieved⟩
  · intro _ _ _ failed
    cases failed
    case still still => exact .inl still
    case removed isDeleting emptied => exact .inr ⟨deleting.symm.trans isDeleting, emptied⟩

omit named in
theorem handle_atomic {r : Result (Action τ)} {m' : Memory τ} (named : IsNamed members)
    (run : (handle settings body).Run (Cluster.api Eq fails) m w r m' w') :
    ∃ id action, nameOf members = .ok id ∧ r = .ok action ∧
      Atomic fails settings body id late m w action m' w' := by
  have ⟨id, named⟩ := named.exists_nameOf
  have ended := handle_concludes lasts metadata named r m' w' run
  cases r
  case error => exact ended.elim
  case ok action =>
    obtain ⟨done, m₁, w₁, m₂, first, concludes, scheduling⟩ := ended
    have leaves : m₁.failures = m.failures := readAndReconcile_leaves.of_run first
    have settled := readAndReconcile_ensures metadata named lasts secrets data lacks done m₁ w₁ first
    refine ⟨id, action, named, rfl, ?_⟩
    cases done
    case error fault =>
      have ⟨same, counted⟩ := concludes.error fault rfl
      have counted : m'.failures = m.failures + 1 := by rw [← leaves, Memory.failures, counted]; rfl
      have last : w₁.Still w' := (schedule_outside id action).still scheduling
      have ⟨fate, fills⟩ : Fate fails settings body id m.session w w' ∧ w'.fills = w.fills :=
        Fate.of_failed last settled
      exact { fate with course := ⟨_, m₁, w₁, m₂, first, scheduling, nofun, fun _ _ => ⟨same, counted, fills⟩⟩ }
    case ok a =>
      have ⟨d, readable, achieved⟩ := settled
      have ⟨same, counted⟩ := concludes.ok a rfl
      have counted : m'.failures = m.failures := by rw [← leaves, Memory.failures, counted]; rfl
      subst same
      have fate := Fate.of_achieved metadata readable achieved scheduling
      exact { fate with course := ⟨_, m₁, w₁, m₂, first, scheduling, fun _ eq => ⟨Except.ok.inj eq, counted⟩, nofun⟩ }

end

end

-- The secret is made, as nothing is refused.
theorem handle_atomic_made : ∃ (r : Result (Action Int)) (m' : Memory Int) (w' : World Int Cluster),
    (handle Settings.inSeconds (guardedBody "SSM")).Run Cluster.honest .start ⟨guardedStart "SSM", []⟩ r m' w' ∧
      w'.state.secrets.get? guardedId ≠ none ∧
      ∃ id action, nameOf guardedMetadata = .ok id ∧ r = .ok action ∧
        Atomic (fun c call fault => c.Lacks call ∧ fault = Cluster.notFound) Settings.inSeconds
          (guardedBody "SSM") id 300 .start ⟨guardedStart "SSM", []⟩ action m' w' := by
  have ⟨m', w', run, _, made⟩ := handle_guardedBody
  have named : IsNamed guardedMetadata := Cluster.isNamed_of_all rfl
  have secrets : Distinct (guardedStart "SSM").secrets := trivial
  exact ⟨_, m', w', run, made, handle_atomic (hasMetadata_guardedBody _) ⟨rfl, rfl⟩ secrets
    (fun _ _ => free_guardedStart) (fun failed _ => failed.left) named run⟩

end Operator

end SecretSync
