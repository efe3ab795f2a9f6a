import SecretSync.Proofs.Cluster.Guarded
import SecretSync.Proofs.Guard.Keeping
import SecretSync.Proofs.Operator.Making
import SecretSync.Proofs.Operator.Tasks
import SecretSync.Proofs.Target.Keeping

/-!
No secret outlives its resource. If nobody else writes secrets or touches the guard, and an operator is
called with bodies that are live, then a secret is there only as long as its resource is, with the guard,
whichever calls are refused. Main statement: `guarded_of_reachable`.
-/

namespace SecretSync

open Table (Distinct)
open Cluster (Guarded IsGuarded Stored Spares Foreign)

variable {τ σ α : Type} {fails : Cluster → ClusterCall → Fault → Prop} {id : ResourceId}

-- While an operator is at work, only its own calls change the cluster.

theorem keeps_guarded_of_asks {p : Call τ → Prop} {op : Op τ σ α} (h : op.Asks p)
    (spares : ∀ {c call}, p (.cluster call) → Spares c call) :
    op.Keeps (Cluster.api Eq fails) Guarded := by
  apply Op.Asks.keeps h fun same guarded => same ▸ guarded
  intro c call reply c' asked replied guarded
  cases reply
  case ok => exact guarded.accepts (spares asked) replied
  case error => exact replied.right ▸ guarded

namespace Guard

variable {s : Snapshot} {w : World τ Cluster}

theorem add_guarded (hw : w.state.Guarded)
    (known : .text defaultFinalizer ∈ s.finalizers → w.state.IsGuarded id) :
    (add id defaultFinalizer : Op τ Snapshot Bool).Maintains (Cluster.api Eq fails) Guarded s w
      fun _ _ w' => w'.state.IsGuarded id := by
  refine add_maintains (Q := fun c => c.IsGuarded id) hw known fun {c _ s _} held accepted => ?_
  have spares : Spares c (.patchObject id ((addition defaultFinalizer).patch s)) :=
    .inl ⟨_, rfl, mem_added ..⟩
  exact ⟨held.accepts spares accepted, held.isGuarded_of_accepts rfl (mem_added ..) accepted⟩

-- Once the secret has gone, the guard may go too.
theorem release_guarded :
    (release id defaultFinalizer : Op τ Snapshot Bool).Keeps (Cluster.api Eq fails) fun c =>
      c.Guarded ∧ c.secrets.get? id = none := by
  apply Op.Asks.keeps (release_asks id _) fun same held => same ▸ held
  intro c call reply c' asked replied ⟨guarded, absent⟩
  cases reply
  case error => exact replied.right ▸ ⟨guarded, absent⟩
  case ok =>
    have spares : Spares c call := by
      cases call
      case patchObject =>
        have ⟨same, _⟩ := asked
        subst same
        exact .inr absent
      case createSecret => exact asked.elim
      all_goals exact trivial
    exact ⟨guarded.accepts spares replied, replied.secrets_eq asked.isObject ▸ absent⟩

end Guard

namespace Target

variable {s : σ} {w : World τ Cluster} {content : Content}

theorem update_guarded (existing : Secret) :
    (update id content existing : Op τ σ _).Keeps (Cluster.api Eq fails) Guarded :=
  keeps_guarded_of_asks (p := fun call => ∃ patch, call = .cluster (.patchSecret id patch))
    (update_asks id content (fun patch => ⟨patch, rfl⟩) existing) fun ⟨_, eq⟩ => by
      cases eq
      exact trivial

theorem create_guarded (hw : w.state.Guarded) (guarded : w.state.IsGuarded id) :
    (create id content : Op τ σ _).KeepsFrom (Cluster.api Eq fails) Guarded s w := by
  refine .bind_ofResult hw fun manifest _ => Cluster.maintains_call fun before same => ?_
  subst same
  have spares : Spares w.state (.createSecret id manifest) := guarded
  exact ⟨hw, fun _ _ accepted => ⟨hw.accepts spares accepted, trivial⟩⟩

-- What is read leaves the cluster as it is.
theorem read_state :
    (read id : Op τ σ _).KeepsFrom (Cluster.api Eq fails) (fun c => c = w.state) s w :=
  (read_maintains fun _ same => same.symm).keepsFrom

theorem ensure_guarded (hw : w.state.Guarded) (guarded : w.state.IsGuarded id) :
    (ensure id content none : Op τ σ _).KeepsFrom (Cluster.api Eq fails) Guarded s w := by
  refine .bind (.of_keepsFrom read_state fun _ same => same ▸ hw) fun found s₁ w₁ hw same => ?_
  cases found
  case some existing => exact update_guarded existing s₁ w₁ hw
  case none =>
    exact .bind (create_guarded hw (same ▸ guarded)) fun _ _ _ hw _ => .pure hw trivial

end Target

section

variable [Timeline τ] {settings : Settings τ} {d : Declaration} {m : Memory τ} {w : World τ Cluster}

namespace Reconcile

theorem writeSecret_guarded {existing : Option Secret} (hw : w.state.Guarded)
    (guarded : existing = none → w.state.IsGuarded id) :
    (writeSecret settings d id existing).KeepsFrom (Cluster.api Eq fails) Guarded m w := by
  have assembled : (assemble settings d).KeepsFrom (Cluster.api Eq fails) (fun c => c = w.state) m w :=
    (assemble_outside settings d).keeps (fun same held => same ▸ held) m w rfl
  rw [writeSecret_eq]
  refine .bind (.of_keepsFrom assembled fun _ same => same ▸ hw) fun content m₁ w₁ hw same => ?_
  apply store_maintains settings
  cases existing
  case none => exact Target.ensure_guarded hw (same ▸ guarded rfl)
  case some existing =>
    rw [Target.ensure_some]
    exact Target.update_guarded existing m₁ w₁ hw

theorem create_guarded (hw : w.state.Guarded)
    (known : .text defaultFinalizer ∈ d.finalizers → w.state.IsGuarded id) :
    (create settings d id).KeepsFrom (Cluster.api Eq fails) Guarded m w :=
  .bind (changeGuard_maintains (Guard.add_guarded hw known)) fun _ _ _ hw ⟨_, guarded⟩ =>
    writeSecret_guarded hw fun _ => guarded

theorem update_guarded (hw : w.state.Guarded)
    (known : .text defaultFinalizer ∈ d.finalizers → w.state.IsGuarded id) :
    (update settings d id).KeepsFrom (Cluster.api Eq fails) Guarded m w := by
  refine .bind (.of_keepsFrom Target.read_state fun _ same => same ▸ hw) fun found m₁ w₁ hw same => ?_
  cases found
  case some existing => exact writeSecret_guarded hw nofun
  case none => exact create_guarded hw fun has => same ▸ known has

variable (lacks : ∀ {c call fault}, fails c call fault → fault.status? = some 404 →
  Cluster.Lacks c call)
include lacks

omit [Timeline τ] in
theorem delete_guarded (hw : w.state.Guarded) :
    (delete d id : Op τ (Memory τ) (Action τ)).KeepsFrom (Cluster.api Eq fails) Guarded m w := by
  have removed : (Target.remove id : Op τ (Memory τ) Unit).Maintains (Cluster.api Eq fails) Guarded m w
      fun _ _ w' => w'.state.secrets.get? id = none := by
    refine Target.remove_maintains (Q := fun c => c.secrets.get? id = none) fun c same => ?_
    subst same
    refine ⟨hw, fun c' ⟨_, gone⟩ => ?_, fun _ failed missing => lacks failed missing⟩
    subst gone
    exact ⟨hw.removeSecret, by simp [Table.get?_remove id id hw.secrets]⟩
  refine .bind removed fun _ _ w₁ hw absent => ?_
  -- From here on there is no secret that the guard is needed for.
  have released : (Guard.release id defaultFinalizer : Op τ Snapshot Bool).KeepsFrom
      (Cluster.api Eq fails) Guarded d.snapshot w₁ :=
    (Guard.release_guarded d.snapshot w₁ ⟨hw, absent⟩).weaken fun _ h => h.left
  exact .bind (changeGuard_maintains released) fun _ _ _ hw _ => .pure hw trivial

theorem locked_guarded {body : Value} (hw : w.state.Guarded)
    (live : ∃ id, w.state.objects.get? id = some body) (readable : Declaration.ofBody body = .ok d) :
    (locked settings d).KeepsFrom (Cluster.api Eq fails) Guarded m w := by
  have ⟨stored, found⟩ := live
  have ⟨⟨own, named, same⟩, told⟩ := (hw.stored found).declaration readable
  have listed : d.finalizers = Cluster.finalizers body := congrArg Snapshot.finalizers told
  -- What the body says of the guard is so.
  have known (has : .text defaultFinalizer ∈ d.finalizers) : w.state.IsGuarded own :=
    ⟨body, Table.get?_congr same _ ▸ found, listed ▸ has⟩
  rw [locked_eq settings named]
  refine .bind (lock_maintains own hw) fun _ m₁ w₁ _ ⟨_, same⟩ => ?_
  subst same
  split
  case h_1 => exact create_guarded hw known
  case h_2 => exact update_guarded hw known
  case h_3 => exact delete_guarded lacks hw

end Reconcile

namespace Operator

-- The tasks in which a body is handled as it is in the cluster.
def Task.IsLive (c : Cluster) : Task → Prop
  | .handle body => ∃ id, c.objects.get? id = some body
  | .resync _ => True
  | .react event body => ∀ kind, event.member "type" = .ok kind → kind.same deleted = false →
    ∃ id, c.objects.get? id = some body

section

variable (lacks : ∀ {c call fault}, fails c call fault → fault.status? = some 404 →
  Cluster.Lacks c call)
include lacks

theorem live_task_guarded {task : Task} (hw : w.state.Guarded) (live : task.IsLive w.state) :
    (task.op settings).KeepsFrom (Cluster.api Eq fails) Guarded m w := by
  have changed {c c' : Cluster} (same : c = c') (h : c.Guarded) : c'.Guarded := same ▸ h
  have handled {body : Value} {m : Memory τ} {w : World τ Cluster} (hw : w.state.Guarded)
      (live : ∃ id, w.state.objects.get? id = some body) :
      (handle settings body).KeepsFrom (Cluster.api Eq fails) Guarded m w :=
    handle_keepsFrom settings changed hw fun _ _ readable _ =>
      Reconcile.locked_guarded lacks hw live readable
  refine Task.op_keepsFrom (fun body eq => ?_) (fun id eq => ?_) fun event body eq => ?_
  · subst eq
    exact handled hw live
  · refine resync_keepsFrom settings changed (Cluster.maintains_call fun before same => ?_)
    subst same
    refine ⟨hw, fun body after ⟨found, same⟩ => ?_⟩
    subst same
    exact ⟨hw, handled hw ⟨id, found⟩⟩
  · subst eq
    exact onEvent_keepsFrom settings hw fun kind told other => handled hw (live kind told other)

-- Where there is a secret, there is its resource with the guard.
theorem guarded_of_reachable {c : Cluster} (empty : c.secrets = []) (distinct : Distinct c.objects)
    (stored : ∀ id body, c.objects.get? id = some body → Stored id body)
    (h : Reachable settings (Cluster.api Eq fails) Foreign (fun c task => task.IsLive c) c m w) :
    ∀ id, w.state.secrets.get? id ≠ none → w.state.IsGuarded id := by
  -- There is no secret to begin with.
  have first : c.Guarded := {
    secrets := empty ▸ trivial
    objects := distinct
    stored := stored _ _
    held := fun held => absurd (by rw [empty]; rfl) held }
  have kept := h.keeps first (fun change h => h.foreign change) fun live hw =>
    live_task_guarded lacks hw live
  exact fun id held => kept.left.held held

end

-- A secret is made for a resource with the guard.
theorem guarded_of_reachable_made :
    ∃ (m : Memory Int) (w : World Int Cluster), Reachable Settings.inSeconds Cluster.honest Foreign
        (fun c task => task.IsLive c) (guardedStart "SSM") m w ∧
      w.state.secrets.get? guardedId ≠ none ∧ w.state.IsGuarded guardedId := by
  have ⟨m, w, handled, _, made⟩ := handle_guardedBody
  have task : ((Task.handle (guardedBody "SSM")).op Settings.inSeconds).Run Cluster.honest .start
      ⟨guardedStart "SSM", []⟩ (.ok ()) m w := .bind handled (.pure ())
  have live : (Task.handle (guardedBody "SSM")).IsLive (guardedStart "SSM") := ⟨guardedId, rfl⟩
  have reached : Reachable Settings.inSeconds Cluster.honest Foreign (fun c task => task.IsLive c)
      (guardedStart "SSM") m w := .ran .start live task
  have distinct : Distinct (guardedStart "SSM").objects := ⟨rfl, trivial⟩
  have guarded := guarded_of_reachable (fun failed _ => failed.left) rfl distinct
    (fun _ _ => stored_guardedStart) reached
  exact ⟨m, w, reached, made, guarded guardedId made⟩

end Operator
end

end SecretSync
