import SecretSync.Proofs.Content.Assembly
import SecretSync.Proofs.Operator.Making
import SecretSync.Proofs.Operator.Tasks
import SecretSync.Proofs.Target.Faithful

/-!
No label ever describes what its secret does not hold. If nobody else writes secrets, this is so in every
state that an operator gets to, whatever it is called for, whatever others do to resources and whichever
calls are refused. And a handling that does not fail leaves the secret with the content that was put
together in it. Main statement: `faithful_of_reachable`.
-/

namespace SecretSync

open Table (Distinct)
open Secrets (AreFaithful Hold)

variable {τ : Type} [Timeline τ] {settings : Settings τ} {others : Cluster → Cluster → Prop}
  {fails : Cluster → ClusterCall → Fault → Prop} {m : Memory τ} {w : World τ Cluster}

namespace Reconcile

-- The content that is put together on the way from `w` to `w'`, beginning with what `session` keeps.
-- Before and after that nothing remote is asked.
def Assembled (api : Api Cluster) (settings : Settings τ) (d : Declaration) (session : Session τ)
    (w w' : World τ Cluster) (content : Content) : Prop :=
  ∃ m₁ w₁ m₂ w₂, m₁.session = session ∧ w.Through (fun step => ¬step.call.IsRemote) w₁ ∧
    (assemble settings d).Run api m₁ w₁ (.ok content) m₂ w₂ ∧
    w₂.Through (fun step => ¬step.call.IsRemote) w'

theorem Assembled.widen {api : Api Cluster} {d : Declaration} {session : Session τ}
    {w w₁ w₂ w' : World τ Cluster} {content : Content}
    (h : Assembled api settings d session w₁ w₂ content)
    (before : w.Through (fun step => ¬step.call.IsRemote) w₁)
    (after : w₂.Through (fun step => ¬step.call.IsRemote) w') :
    Assembled api settings d session w w' content :=
  have ⟨m₁, v₁, m₂, v₂, session, first, run, last⟩ := h
  ⟨m₁, v₁, m₂, v₂, session, before.trans first, run, last.trans after⟩

-- The secret holds the content that was put together on the way.
abbrev Written (api : Api Cluster) (settings : Settings τ) (d : Declaration) (id : ResourceId)
    (session : Session τ) (w w' : World τ Cluster) : Prop :=
  ∃ content, Assembled api settings d session w w' content ∧ Hold w'.state.secrets id content

variable (apart : ∀ {c c'}, others c c' → c'.secrets = c.secrets) {d : Declaration} {id : ResourceId}
include apart

theorem writeSecret_faithful {existing : Option Secret} (hw : w.state.IsFaithful)
    (live : ∀ s, existing = some s → w.state.secrets.get? id = some s) :
    (writeSecret settings d id existing).Maintains (Cluster.api others fails) Cluster.IsFaithful m w
      fun _ _ w' => Written (Cluster.api others fails) settings d id m.session w w' := by
  have distinct : (assemble settings d).Ensures (Cluster.api others fails) m w
      (fun content _ _ => Distinct content) fun _ _ _ => True :=
    Op.ensures_within.mpr (Content.distinct_assemble settings _ _ _ w)
  have still : (assemble settings d).KeepsFrom (Cluster.api others fails)
      (fun c => c.secrets = w.state.secrets) m w :=
    (assemble_outside settings d).keeps (fun change held => (apart change).trans held) m w rfl
  have same : (assemble settings d).Maintains (Cluster.api others fails) Cluster.IsFaithful m w
      fun _ _ w' => w'.state.secrets = w.state.secrets :=
    .of_keepsFrom still fun _ same => Cluster.isFaithful_congr same hw
  rw [writeSecret_eq]
  -- What is known of the secret is still so when the content has been put together.
  refine .bind ((same.and distinct).and_run) fun content m₁ w₁ hw ⟨⟨same, distinct⟩, run⟩ => ?_
  have ensured : (Target.ensure id content existing).Maintains (Cluster.api others fails)
      Cluster.IsFaithful m₁ w₁ fun _ _ w' => Hold w'.state.secrets id content :=
    Target.ensure_faithful apart hw distinct fun s eq => same ▸ live s eq
  refine (store_maintains settings ensured).and_run.mono fun _ _ w' _ ⟨hold, rest⟩ => ?_
  have after := (store_inside settings id existing content).through rest
  refine ⟨content, ⟨m, w, m₁, w₁, rfl, .refl w, run, ?_⟩, hold⟩
  exact after.mono fun _ cluster => cluster.not_isRemote

omit [Timeline τ] in
theorem changeGuard_faithful {op : Op τ Snapshot Bool} (h : op.Asks Call.IsObject)
    (hw : w.state.IsFaithful) :
    (changeGuard d op).Maintains (Cluster.api others fails) Cluster.IsFaithful m w fun _ m' w' =>
      m' = m ∧ w.Through (fun step => ¬step.call.IsRemote) w' := by
  have kept : (changeGuard d op).KeepsFrom (Cluster.api others fails) Cluster.IsFaithful m w :=
    Cluster.keeps_secrets_of_asks (changeGuard_asks d h) apart m w hw
  refine kept.and_run.mono fun _ m' w' _ ⟨_, run⟩ => ?_
  have same := (changeGuard_leaves (f := fun m => m) d op).of_run run
  refine ⟨same, ((changeGuard_asks d h).through run).mono ?_⟩
  exact fun _ object => object.isCluster.not_isRemote

theorem create_faithful (hw : w.state.IsFaithful) :
    (create settings d id).Maintains (Cluster.api others fails) Cluster.IsFaithful m w
      fun _ _ w' => Written (Cluster.api others fails) settings d id m.session w w' := by
  have asked : (Guard.add id defaultFinalizer : Op τ Snapshot Bool).Asks Call.IsObject :=
    (Guard.add_asks id _).mono fun _ => Call.IsChange.isObject
  refine .bind (changeGuard_faithful apart asked hw) fun _ m₁ w₁ hw ⟨same, before⟩ => ?_
  subst same
  refine (writeSecret_faithful apart hw (by nofun)).mono fun _ _ w' _ ⟨content, assembled, hold⟩ => ?_
  exact ⟨content, assembled.widen before (.refl w'), hold⟩

theorem update_faithful (hw : w.state.IsFaithful) :
    (update settings d id).Maintains (Cluster.api others fails) Cluster.IsFaithful m w
      fun _ _ w' => Written (Cluster.api others fails) settings d id m.session w w' := by
  have known : (Target.read id).Maintains (Cluster.api others fails) Cluster.IsFaithful m w _ :=
    Target.read_maintains fun _ changed => Cluster.isFaithful_congr (apart changed) hw
  refine .bind known.and_run fun found m₁ w₁ hw ⟨⟨same, live⟩, run⟩ => ?_
  have before : w.Through (fun step => ¬step.call.IsRemote) w₁ :=
    (Target.read_asks (p := fun call => ¬call.IsRemote) id fun h => h).through run
  have goOn {op : Op τ (Memory τ) (Action τ)}
      (h : op.Maintains (Cluster.api others fails) Cluster.IsFaithful m₁ w₁ fun _ _ w' =>
        Written (Cluster.api others fails) settings d id m₁.session w₁ w') :
      op.Maintains (Cluster.api others fails) Cluster.IsFaithful m₁ w₁ fun _ _ w' =>
        Written (Cluster.api others fails) settings d id m.session w w' :=
    h.mono fun _ _ w' _ ⟨content, assembled, hold⟩ =>
      ⟨content, same ▸ assembled.widen before (.refl w'), hold⟩
  cases found
  case some existing => exact goOn (writeSecret_faithful apart hw live)
  case none => exact goOn (create_faithful apart hw)

omit [Timeline τ] in
theorem delete_faithful (hw : w.state.IsFaithful) :
    (delete d id : Op τ (Memory τ) (Action τ)).KeepsFrom (Cluster.api others fails) Cluster.IsFaithful
      m w := by
  have asked : (Guard.release id defaultFinalizer : Op τ Snapshot Bool).Asks Call.IsObject :=
    (Guard.release_asks id _).mono fun _ => Call.IsChange.isObject
  exact .bind (Target.remove_faithful apart hw) fun _ _ _ hw _ =>
    .bind (changeGuard_faithful apart asked hw) fun _ _ _ hw _ => .pure hw trivial

theorem locked_faithful (hw : w.state.IsFaithful) :
    (locked settings d).Maintains (Cluster.api others fails) Cluster.IsFaithful m w fun _ _ w' =>
      d.isDeleting = false → ∃ id, d.id = .ok id ∧
        Written (Cluster.api others fails) settings d id m.session w w' := by
  refine .bind_ofResult hw fun id known => ?_
  refine .bind (lock_maintains id hw) fun _ m₁ w₁ _ ⟨session, same⟩ => ?_
  subst same
  rw [← session]
  split
  case h_1 => exact (create_faithful apart hw).mono fun _ _ _ _ written _ => ⟨id, known, written⟩
  case h_2 => exact (update_faithful apart hw).mono fun _ _ _ _ written _ => ⟨id, known, written⟩
  case h_3 phase =>
    refine (delete_faithful apart hw).mono fun _ _ _ _ _ notDeleting => ?_
    simp only [notDeleting, Phase.of, Bool.false_eq_true, if_false] at phase
    split at phase <;> cases phase

end Reconcile

namespace Operator

-- Where the handling of a body begins: at once, or after the body was read from the cluster.
inductive Begins (api : Api Cluster) (m : Memory τ) (w : World τ Cluster) (body : Value) :
    World τ Cluster → Prop
  | given : Begins api m w body w
  | fetched {id : ResourceId} {w' : World τ Cluster}
      (run : (Op.cluster (.getObject id)).Run api m w (.ok body) m w') : Begins api m w body w'

section

variable (apart : ∀ {c c'}, others c c' → c'.secrets = c.secrets)
include apart

theorem task_faithful (task : Task) (m : Memory τ) {w : World τ Cluster} (hw : w.state.IsFaithful) :
    (task.op settings).KeepsFrom (Cluster.api others fails) Cluster.IsFaithful m w := by
  have changed {c c' : Cluster} (change : others c c') (h : c.IsFaithful) : c'.IsFaithful :=
    Cluster.isFaithful_congr (apart change) h
  have handled (body : Value) (m : Memory τ) {w : World τ Cluster} (hw : w.state.IsFaithful) :
      (handle settings body).KeepsFrom (Cluster.api others fails) Cluster.IsFaithful m w :=
    handle_keepsFrom settings changed hw fun _ _ _ _ => (Reconcile.locked_faithful apart hw).keepsFrom
  refine Task.op_keepsFrom (fun body _ => handled body m hw) (fun id _ => ?_) fun event body _ => ?_
  · refine resync_keepsFrom settings changed (Cluster.maintains_call fun before change => ?_)
    have held := changed change hw
    refine ⟨held, fun body after ⟨_, same⟩ => ?_⟩
    subst same
    exact ⟨held, handled body m held⟩
  · exact onEvent_keepsFrom settings hw fun _ _ _ => handled body m hw

omit [Timeline τ] in
-- Fetching the body leaves the secrets alone.
theorem Begins.faithful {body : Value} {w₁ : World τ Cluster} (hw : w.state.IsFaithful)
    (begins : Begins (Cluster.api others fails) m w body w₁) : w₁.state.IsFaithful := by
  cases begins
  case given => exact hw
  case fetched id fetching =>
    have asked : (Op.cluster (.getObject id) : Op τ (Memory τ) Value).Asks Call.IsObject :=
      .cluster trivial
    exact ((Cluster.keeps_secrets_of_asks asked apart m w hw).kept fetching).left

theorem handle_written {body : Value} {action : Action τ} {m' : Memory τ} {w' : World τ Cluster}
    (hw : w.state.IsFaithful)
    (run : (handle settings body).Run (Cluster.api others fails) m w (.ok action) m' w')
    (same : m'.failures = m.failures) :
    ∃ d, Declaration.ofBody body = .ok d ∧ (d.isDeleting = false → ∃ id, d.id = .ok id ∧
      Reconcile.Written (Cluster.api others fails) settings d id m.session w w') := by
  have ⟨d, own, m₁, m₂, w₁, m₃, m₄, readable, known, session, locked, scheduled⟩ :=
    handle_succeeds settings body m w _ _ _ run same
  have ⟨_, written⟩ := Reconcile.locked_faithful apart hw _ _ _ locked
  refine ⟨d, readable, fun notDeleting => ?_⟩
  have ⟨id, known, content, assembled, hold⟩ := written notDeleting
  -- After the lock only the next resync is scheduled.
  have after := (schedule_asks (p := fun call => ¬call.IsRemote) (fun h => h) own action).through scheduled
  have still : (schedule own action).KeepsFrom (Cluster.api others fails)
      (fun c => c.secrets = w₁.state.secrets) m₃ w₁ :=
    (schedule_outside own action).keeps (fun change held => (apart change).trans held) m₃ w₁ rfl
  have unchanged : w'.state.secrets = w₁.state.secrets := (still.kept scheduled).left
  exact ⟨id, known, content, session ▸ assembled.widen (.refl w) after, unchanged ▸ hold⟩

-- The labels tell the truth in every state, and a handling of a body that is not counted as a failure
-- leaves the secret with the content that was put together in it.
theorem faithful_of_reachable {c : Cluster} (distinct : Distinct c.secrets)
    (data : ∀ id s, c.secrets.get? id = some s → s.IsDistinct)
    (blank : ∀ id s, c.secrets.get? id = some s → ∀ n, s.fingerprint? ≠ .ok (some n))
    (h : Reachable settings (Cluster.api others fails) others (fun _ _ => True) c m w) :
    (∀ k, k = w.state ∨ (∃ step ∈ w.steps, k = step.before ∨ k = step.after) →
      ∀ id s, k.secrets.get? id = some s → s.IsFaithful) ∧
    ∀ body w₁ action m' w', Begins (Cluster.api others fails) m w body w₁ →
      (handle settings body).Run (Cluster.api others fails) m w₁ (.ok action) m' w' →
      m'.failures = m.failures →
      ∃ d, Declaration.ofBody body = .ok d ∧ (d.isDeleting = false → ∃ id, d.id = .ok id ∧
        Reconcile.Written (Cluster.api others fails) settings d id m.session w₁ w') := by
  -- A label that cannot be read tells nothing, so it tells nothing false.
  have first : c.IsFaithful := {
    distinct
    each := fun found => ⟨fun n recorded => absurd recorded (blank _ _ found n), data _ _ found⟩ }
  have changed {c c' : Cluster} (change : others c c') (h : c.IsFaithful) : c'.IsFaithful :=
    Cluster.isFaithful_congr (apart change) h
  have kept := h.keeps first changed fun {task m _} _ hw => task_faithful apart task m hw
  constructor
  case left =>
    have ⟨last, steps, eq, each⟩ := kept
    intro k hk id s found
    cases hk
    case inl here => exact ((here ▸ last).each found).left
    case inr passed =>
      have ⟨step, mem, hk⟩ := passed
      have ⟨before, after⟩ := each step (by simpa [eq] using mem)
      cases hk
      case inl here => exact ((here ▸ before).each found).left
      case inr here => exact ((here ▸ after).each found).left
  case right => exact fun _ _ _ _ _ begins => handle_written apart (begins.faithful apart kept.left)

end

-- A value is looked up and made a secret of. Its label records what it holds, and that is what was put together.
theorem faithful_of_reachable_made : ∃ (m : Memory Int) (w : World Int Cluster) (d : Declaration) (s : Secret)
      (n : Int), Reachable Settings.inSeconds Cluster.honest Eq (fun _ _ => True) (guardedStart "SSM") m w ∧
    Declaration.ofBody (guardedBody "SSM") = .ok d ∧
    Reconcile.Written Cluster.honest Settings.inSeconds d guardedId (Memory.start : Memory Int).session
      ⟨guardedStart "SSM", []⟩ w ∧
    w.state.secrets.get? guardedId = some s ∧ s.fingerprint? = .ok (some n) ∧ s.IsFaithful := by
  have ⟨m, w, handled, succeeded, _⟩ := handle_guardedBody
  have ⟨d, readable, named, kept⟩ := guardedBody_readable "SSM"
  have apart {c c' : Cluster} (same : c = c') : c'.secrets = c.secrets := same ▸ rfl
  have distinct : Distinct (guardedStart "SSM").secrets := trivial
  have first : Reachable Settings.inSeconds Cluster.honest Eq (fun _ _ => True) (guardedStart "SSM")
      (.start : Memory Int) ⟨guardedStart "SSM", []⟩ := .start
  have ⟨_, handling⟩ := faithful_of_reachable apart distinct (fun _ _ => free_guardedStart)
    (fun _ _ => free_guardedStart) first
  obtain ⟨d', readable', written⟩ := handling _ _ _ _ _ .given handled succeeded
  cases readable.symm.trans readable'
  obtain ⟨id, named', written⟩ := written kept
  cases named.symm.trans named'
  have task : ((Task.handle (guardedBody "SSM")).op Settings.inSeconds).Run Cluster.honest .start
      ⟨guardedStart "SSM", []⟩ (.ok ()) m w := .bind handled (.pure ())
  have reached := first.ran trivial task
  have ⟨labels, _⟩ := faithful_of_reachable apart distinct (fun _ _ => free_guardedStart)
    (fun _ _ => free_guardedStart) reached
  have ⟨_, _, s, _, n, found, holds⟩ := written
  exact ⟨m, w, d, s, n, reached, readable, written, found, holds.recorded, labels _ (.inl rfl) _ _ found⟩

end Operator
end SecretSync
