import SecretSync.Proofs.Operator.Handling
import SecretSync.Proofs.Settings
import SecretSync.Proofs.Cluster.Body

/-!
How a handling ends. A body with a name is handled without failing: what happens while it is read and
reconciled is answered by the error policy if need be, and in any case the next reconciliation is scheduled.
Main statement: `Operator.handle_concludes`.
-/

namespace SecretSync.Operator

open Cluster (HasMetadata ReadsMetadata nameOf metadataName)

variable {τ κ : Type} [Timeline τ] (settings : Settings τ)

-- The part of a handling whose failure the error policy is for.
def readAndReconcile (body : Value) : Op τ (Memory τ) (Action τ) := do
  Reconcile.reconcile settings (← Op.ofResult (Declaration.ofBody body))

-- The next reconciliation, after what came of that part.
def conclude : Result (Action τ) → Op τ (Memory τ) (Action τ)
  | .ok action => pure action
  | .error _ => Reconcile.failed settings

theorem handle_eq {body : Value} {members : Table Text Value} {id : ResourceId}
    (metadata : ReadsMetadata body members) (named : nameOf members = .ok id) :
    handle settings body = (do
      let action ← conclude settings (← Op.attempt (readAndReconcile settings body))
      schedule id action
      pure action) := by
  cases readable : Declaration.ofBody body
  case ok d =>
    have told : d.id = .ok id := (metadata.declaration readable).left.trans named
    have run : Reconcile.run settings d =
        Op.attempt (Reconcile.reconcile settings d) >>= conclude settings := by
      refine bind_congr fun result => ?_
      cases result
      all_goals rfl
    simp only [handle, reconcileBody, readAndReconcile, readable, run, Op.ofResult_ok, pure_bind, told,
      bind_assoc]
  case error fault =>
    -- The name can be read although the body cannot.
    obtain ⟨outer, eq, found⟩ := metadata
    have read : body.member metadataName = .ok ((outer.get? metadataName).getD .null) := by
      simp [eq, Value.member]
    simp only [nameOf, Result.bind_eq_ok_iff] at named
    obtain ⟨_, told, known⟩ := named
    simp only [handle, reconcileBody, readAndReconcile, readable, read, Op.ofResult_ok, pure_bind, found,
      told, known, bind_assoc, Op.ofResult_error, Op.throw_bind, Op.attempt_throw, conclude]

-- What follows the result of that part.
structure Concludes (late : τ) (done : Result (Action τ)) (before after : Memory τ) (action : Action τ) :
    Prop where
  ok    : ∀ a, done = .ok a → action = a ∧ after.counters = before.counters
  error : ∀ fault, done = .error fault → action = .requeue late ∧
    after.counters = { before.counters with failures := before.counters.failures + 1 }

section

variable {settings} {api : Api κ} {m : Memory τ} {w : World τ κ} {body : Value} {id : ResourceId}
  {soon late : τ}

theorem readAndReconcile_leavesBeside {γ : Type} {f : Memory τ → γ} (beside : Memory.Beside f)
    (locks : ∀ d id, Declaration.ofBody body = .ok d → d.id = .ok id →
      (Reconcile.lock id : Op τ (Memory τ) Unit).Leaves f) :
    (readAndReconcile settings body).Leaves f := by
  cases readable : Declaration.ofBody body
  case error =>
    simp only [readAndReconcile, readable, Op.ofResult_error, Op.throw_bind]
    exact .throw _
  case ok d =>
    simp only [readAndReconcile, readable, Op.ofResult_ok, pure_bind]
    have locked := Reconcile.locked_leavesBeside settings beside fun id => locks d id readable
    exact .bind (.modify fun m => beside.counters m _ rfl) fun _ => .bind (.attempt locked) fun _ =>
      .bind (.modify fun m => beside.counters m _ rfl) fun _ => .ofResult _

theorem readAndReconcile_leavesAside {γ : Type} {f : Memory τ → γ} (aside : Memory.Aside f) :
    (readAndReconcile settings body).Leaves f :=
  readAndReconcile_leavesBeside aside.toBeside fun _ id _ _ => Reconcile.lock_leaves aside id

theorem readAndReconcile_leaves : (readAndReconcile settings body).Leaves Memory.failures :=
  readAndReconcile_leavesAside Memory.aside_failures

-- Scheduling does not fail. A time that is not the next change is reckoned from the clock.
theorem schedule_ensures (action : Action τ) :
    (schedule id action).Ensures api m w
      (fun _ m' w' => m'.counters = m.counters ∧ ∀ after, action = .requeue after →
        ∃ step, step.call = .now ∧ w'.steps = w.steps ++ [step])
      fun _ _ _ => False := by
  cases action
  case awaitChange => exact (Op.ensures_modify _).mpr ⟨rfl, nofun⟩
  case requeue =>
    refine Op.ensures_bind.mpr (Op.ensures_now.mpr fun time state _ => ?_)
    exact (Op.ensures_modify _).mpr ⟨rfl, fun _ _ => ⟨_, rfl, rfl⟩⟩

omit [Timeline τ] in
-- Only counters change when a handling is concluded.
theorem conclude_leaves {γ : Type} {f : Memory τ → γ} (counters : ∀ m counters, f { m with counters } = f m)
    (done : Result (Action τ)) : (conclude settings done).Leaves f := by
  cases done
  case ok => exact .pure _
  case error => exact .bind (.modify fun m => counters m _) fun _ => .bind (.ofResult _) fun _ => .pure _

omit [Timeline τ] in
theorem conclude_ensures (lasts : settings.Lasts soon late) (done : Result (Action τ)) :
    (conclude settings done).Ensures api m w
      (fun action m' w' => w' = w ∧ Concludes late done m m' action) fun _ _ _ => False := by
  cases done
  case ok a => exact (Op.ensures_pure a).mpr ⟨rfl, fun _ same => ⟨Except.ok.inj same, rfl⟩, nofun⟩
  case error =>
    refine Op.ensures_bind.mpr ((Op.ensures_modify _).mpr (.bind_ofResult (fun after eq => ?_) ?_))
    · rw [lasts.failure] at eq
      cases eq
      exact (Op.ensures_pure _).mpr ⟨rfl, nofun, fun _ _ => ⟨rfl, rfl⟩⟩
    · rw [lasts.failure]
      nofun

-- Whatever comes of reading and reconciling, it is concluded and the resource scheduled.
theorem handle_schedules (lasts : settings.Lasts soon late) {members : Table Text Value}
    (metadata : ReadsMetadata body members) (named : nameOf members = .ok id) :
    (handle settings body).Ensures api m w
      (fun action m' w' => ∃ done m₁ w₁ m₂, (readAndReconcile settings body).Run api m w done m₁ w₁ ∧
        (conclude settings done).Run api m₁ w₁ (.ok action) m₂ w₁ ∧ Concludes late done m₁ m₂ action ∧
        (schedule id action).Run api m₂ w₁ (.ok ()) m' w')
      fun _ _ _ => False := by
  rw [handle_eq settings metadata named]
  apply (Op.Ensures.of_attempt _ m w).bind
  intro done m₁ w₁ run
  apply (conclude_ensures lasts done).run.bind
  intro action m₂ w₂ ⟨concluded, same, concludes⟩
  subst same
  apply (schedule_ensures action).run.bind
  intro _ m₃ w₃ ⟨scheduled, _⟩
  exact (Op.ensures_pure _).mpr ⟨done, m₁, w₂, m₂, run, concluded, concludes, scheduled⟩

theorem handle_concludes (lasts : settings.Lasts soon late) {members : Table Text Value}
    (metadata : HasMetadata body members) (named : nameOf members = .ok id) :
    (handle settings body).Ensures api m w
      (fun action m' w' => ∃ done m₁ w₁ m₂, (readAndReconcile settings body).Run api m w done m₁ w₁ ∧
        Concludes late done m₁ m' action ∧ (schedule id action).Run api m₂ w₁ (.ok ()) m' w')
      fun _ _ _ => False := by
  apply (handle_schedules lasts metadata.reads named).mono
  case hfail => exact fun _ _ _ never => never
  intro action m' w' ⟨done, m₁, w₁, m₂, run, _, concludes, scheduled⟩
  have kept : m'.counters = m₂.counters := (schedule_ensures _ _ _ _ scheduled).left
  have concludes : Concludes late done m₁ m' action := {
    ok := fun a eq => kept ▸ concludes.ok a eq
    error := fun fault eq => kept ▸ concludes.error fault eq }
  exact ⟨done, m₁, w₁, m₂, run, concludes, scheduled⟩

end

end SecretSync.Operator
