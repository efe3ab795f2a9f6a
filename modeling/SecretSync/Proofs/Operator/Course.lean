import SecretSync.Proofs.Content.Assembly
import SecretSync.Proofs.Effect.Record
import SecretSync.Proofs.Operator.Handling
import SecretSync.Proofs.Target.Exact

/-!
The course of a reconciliation. Content is put together between calls to the cluster, and what it is can be
told from the record. Whichever calls are refused, the secret is as it was, or holds just that content, or
is gone with its resource being deleted. Main statements: `Reconcile.locked_ensures`,
`Operator.Composed.unique`.
-/

namespace SecretSync

open Table (Distinct)

variable {τ κ α : Type}

namespace World

-- The calls that were not made to the cluster.
open Classical in
noncomputable def outer (steps : List (Step τ κ)) : List (Step τ κ) :=
  steps.filter fun step => ¬step.call.IsCluster

theorem outer_of_through {w w' : World τ κ} {steps : List (Step τ κ)}
    (h : w.Through (fun step => step.call.IsCluster) w') (eq : w'.steps = w.steps ++ steps) :
    outer steps = [] := by
  have ⟨steps', eq', inside⟩ := h
  have same : steps' = steps := List.append_cancel_left (eq'.symm.trans eq)
  subst same
  simpa [outer] using inside

theorem outer_of_outside {w w' : World τ κ} {steps : List (Step τ κ)}
    (h : w.Through (fun step => ¬step.call.IsCluster) w') (eq : w'.steps = w.steps ++ steps) :
    outer steps = steps := by
  have ⟨steps', eq', outside⟩ := h
  have same : steps' = steps := List.append_cancel_left (eq'.symm.trans eq)
  subst same
  simpa [outer] using outside

end World

section

variable [Timeline τ] {settings : Settings τ} {d : Declaration} {session : Session τ} {api : Api κ}
  {w w₁ w₂ w' : World τ κ} {r r' : Result Content}

namespace Reconcile

-- What comes of putting content together between `w` and `w'`, beginning with what `session` keeps. Before
-- and after that only the cluster is asked.
def Composed (api : Api κ) (settings : Settings τ) (d : Declaration) (session : Session τ)
    (w w' : World τ κ) (r : Result Content) : Prop :=
  ∃ w₁ session' w₂, w.Through (fun step => step.call.IsCluster) w₁ ∧
    (Content.assemble settings settings.cacheTtl d.sources).Run api session w₁ r session' w₂ ∧
    w₂.Through (fun step => step.call.IsCluster) w'

namespace Composed

theorem widen (h : Composed api settings d session w₁ w₂ r)
    (before : w.Through (fun step => step.call.IsCluster) w₁)
    (after : w₂.Through (fun step => step.call.IsCluster) w') :
    Composed api settings d session w w' r :=
  have ⟨v₁, session', v₂, first, run, last⟩ := h
  ⟨v₁, session', v₂, before.trans first, run, last.trans after⟩

-- The calls that are not made to the cluster are just those by which the content was put together.
theorem record (h : Composed api settings d session w w' r) :
    ∃ session' v v' made made', w'.steps = w.steps ++ made ∧ v'.steps = v.steps ++ made' ∧
      World.outer made = made' ∧
      (Content.assemble settings settings.cacheTtl d.sources).Run api session v r session' v' := by
  have ⟨v, session', v', before, run, after⟩ := h
  have ⟨front, first, _⟩ := before
  have outside := (Content.assemble_outside settings settings.cacheTtl d.sources).through run
  have ⟨made', grown, _⟩ := outside
  have ⟨back, last, _⟩ := after
  refine ⟨session', v, v', front ++ made' ++ back, made', by simp [last, grown, first], grown, ?_, run⟩
  have inner : World.outer (front ++ made' ++ back) =
      World.outer front ++ World.outer made' ++ World.outer back := by
    simp [World.outer]
  rw [inner, World.outer_of_through before first, World.outer_of_outside outside grown,
    World.outer_of_through after last]
  simp

theorem unique (h : Composed api settings d session w w' r)
    (h' : Composed api settings d session w w' r') : r = r' := by
  obtain ⟨_, v₁, v₁', made₁, _, grown₁, inner₁, eq₁, run₁⟩ := h.record
  obtain ⟨_, v₂, v₂', made₂, _, grown₂, inner₂, eq₂, run₂⟩ := h'.record
  have same : made₁ = made₂ := List.append_cancel_left (grown₁.symm.trans grown₂)
  subst same eq₁ eq₂
  exact (Prod.mk.inj (Script.Run.unique run₁ run₂ inner₁ inner₂ rfl)).left

theorem distinct {content : Content} (h : Composed api settings d session w w' (.ok content)) :
    Distinct content :=
  have ⟨w₁, _, _, _, run, _⟩ := h
  Content.distinct_assemble settings _ _ _ w₁ _ _ _ run

end Composed

theorem assemble_composed {m : Memory τ} :
    (assemble settings d).Ensures api m w
      (fun content _ w' => Composed api settings d m.session w w' (.ok content))
      fun fault _ w' => Composed api settings d m.session w w' (.error fault) :=
  Op.ensures_within.mpr ((Op.Ensures.of_run _ m.session w).mono
    (fun _ session' w' run => ⟨w, session', w', .refl w, run, .refl w'⟩)
    fun _ session' w' run => ⟨w, session', w', .refl w, run, .refl w'⟩)

end Reconcile

namespace Operator

-- The same for a handling, which looks at the clock in the end.
def Composed (api : Api κ) (settings : Settings τ) (d : Declaration) (session : Session τ)
    (w w' : World τ κ) (r : Result Content) : Prop :=
  ∃ w₁ step, Reconcile.Composed api settings d session w w₁ r ∧ step.call = .now ∧
    w'.steps = w₁.steps ++ [step]

theorem Composed.unique (h : Composed api settings d session w w' r)
    (h' : Composed api settings d session w w' r') : r = r' := by
  have ⟨w₁, step, composed, _, last⟩ := h
  have ⟨w₂, step', composed', _, last'⟩ := h'
  have same : w₁.steps = w₂.steps := (List.append_inj' (last.symm.trans last') rfl).left
  have ⟨v, session', v', first, run, ⟨back, eq, inside⟩⟩ := composed
  have again : Reconcile.Composed api settings d session w w₂ r :=
    ⟨v, session', v', first, run, back, same ▸ eq, inside⟩
  exact again.unique composed'

end Operator
end

-- What precedes the putting together of content: the cluster is asked, but no secret is written.
structure Prepared (m : Memory τ) (w : World τ Cluster) (m' : Memory τ) (w' : World τ Cluster) : Prop where
  session : m'.session = m.session
  still   : w.Still w'
  inside  : w.Through (fun step => step.call.IsCluster) w'

variable {fails : Cluster → ClusterCall → Fault → Prop} {m m' : Memory τ} {w w' : World τ Cluster}

theorem Prepared.of_run {op : Op τ (Memory τ) α} {r : Result α}
    (asks : op.Asks fun call => call.IsMild ∧ call.IsCluster) (leaves : op.Leaves Memory.session)
    (run : op.Run (Cluster.api Eq fails) m w r m' w') : Prepared m w m' w' where
  session := leaves.of_run run
  still := Op.Asks.still (asks.mono fun _ h => h.left) run
  inside := Op.Asks.through (asks.mono fun _ h => h.right) run

namespace Reconcile

section

variable [Timeline τ] {settings : Settings τ} {d : Declaration} {id : ResourceId} {existing : Option Secret}

omit [Timeline τ] in
theorem store_ensures {content : Content} {soon : τ} (requeues : settings.requeueAfter = .lasting soon)
    (distinct : Distinct content)
    (live : ∀ s, existing = some s → w.state.secrets.get? id = some s)
    (data : ∀ s, w.state.secrets.get? id = some s → s.IsDistinct) :
    (store settings id existing content).Ensures (Cluster.api Eq fails) m w
      (fun action _ w' => action = .requeue soon ∧ w.Ensured id content w') fun _ _ w' => w.Still w' := by
  refine .bind (Target.ensure_ensures distinct live data) fun outcome m₁ w₁ ensured => ?_
  have counted : (countOutcome outcome : Op τ (Memory τ) Unit).Ensures (Cluster.api Eq fails) m₁ w₁
      (fun _ _ w' => w' = w₁) fun _ _ w' => w.Still w' := by
    cases outcome
    case unchanged => exact (Op.ensures_pure ()).mpr rfl
    all_goals exact (Op.ensures_modify _).mpr rfl
  refine .bind counted fun _ _ _ same => .bind_ofResult (fun after eq => ?_) fun fault eq => ?_
  · rw [requeues] at eq
    cases eq
    exact (Op.ensures_pure _).mpr ⟨rfl, same ▸ ensured⟩
  · rw [requeues] at eq
    cases eq

theorem assemble_ensures :
    (assemble settings d).Ensures (Cluster.api Eq fails) m w
      (fun content _ w' => w.Still w' ∧
        Composed (Cluster.api Eq fails) settings d m.session w w' (.ok content))
      fun _ _ w' => w.Still w' := by
  have outside := assemble_outside settings d
  refine ((Op.Ensures.of_run _ m w).and assemble_composed).mono ?_ ?_
  · exact fun _ _ _ ⟨run, composed⟩ => ⟨outside.still run, composed⟩
  · exact fun _ _ _ ⟨run, _⟩ => outside.still run

-- The secret was made to hold what was put together on the way.
def Fitted (api : Api Cluster) (settings : Settings τ) (d : Declaration) (id : ResourceId)
    (session : Session τ) (w w' : World τ Cluster) : Prop :=
  ∃ content, Composed api settings d session w w' (.ok content) ∧ w.Ensured id content w'

theorem Fitted.after {w₁ : World τ Cluster} {m₁ : Memory τ} (prepared : Prepared m w m₁ w₁)
    (h : Fitted (Cluster.api Eq fails) settings d id m₁.session w₁ w') :
    Fitted (Cluster.api Eq fails) settings d id m.session w w' :=
  have ⟨content, composed, ensured⟩ := h
  ⟨content, prepared.session ▸ composed.widen prepared.inside (.refl w'), ensured.after prepared.still⟩

variable {soon : τ} (requeues : settings.requeueAfter = .lasting soon)
  (data : ∀ s, w.state.secrets.get? id = some s → s.IsDistinct)
include requeues data

theorem writeSecret_ensures (live : ∀ s, existing = some s → w.state.secrets.get? id = some s) :
    (writeSecret settings d id existing).Ensures (Cluster.api Eq fails) m w
      (fun action _ w' => action = .requeue soon ∧
        Fitted (Cluster.api Eq fails) settings d id m.session w w')
      fun _ _ w' => w.Still w' := by
  rw [writeSecret_eq]
  refine .bind assemble_ensures fun content m₁ w₁ ⟨still, composed⟩ => ?_
  -- What is known of the secret is still so when the content has been put together.
  have stored : (store settings id existing content).Ensures (Cluster.api Eq fails) m₁ w₁ _ _ :=
    store_ensures requeues composed.distinct (fun s eq => still.secrets ▸ live s eq)
      fun s found => data s (still.secrets ▸ found)
  refine ((Op.Ensures.of_run _ m₁ w₁).and stored).mono ?_ fun _ _ _ ⟨_, rest⟩ => still.trans rest
  intro action m' w' ⟨run, same, ensured⟩
  have inside := (store_inside settings id existing content).through run
  exact ⟨same, content, composed.widen (.refl w) inside, ensured.after still⟩

theorem create_ensures :
    (create settings d id).Ensures (Cluster.api Eq fails) m w
      (fun action _ w' => action = .requeue soon ∧
        Fitted (Cluster.api Eq fails) settings d id m.session w w')
      fun _ _ w' => w.Still w' := by
  have asked : (changeGuard d (Guard.add id defaultFinalizer) : Op τ (Memory τ) Bool).Asks
      fun call => call.IsMild ∧ call.IsCluster :=
    changeGuard_asks d ((Guard.add_asks id _).mono fun _ change => ⟨change.isMild, change.isObject.isCluster⟩)
  have guarded : (changeGuard d (Guard.add id defaultFinalizer)).Ensures (Cluster.api Eq fails) m w
      (fun _ m' w' => Prepared m w m' w') fun _ m' w' => Prepared m w m' w' :=
    (Op.Ensures.of_run _ m w).mono (fun _ _ _ => .of_run asked (changeGuard_leaves d _))
      fun _ _ _ => .of_run asked (changeGuard_leaves d _)
  refine Op.ensures_bind.mpr (guarded.mono ?_ fun _ _ _ prepared => prepared.still)
  intro _ m₁ w₁ prepared
  have known (s : Secret) (found : w₁.state.secrets.get? id = some s) : s.IsDistinct :=
    data s (prepared.still.secrets ▸ found)
  have written : (writeSecret settings d id none).Ensures (Cluster.api Eq fails) m₁ w₁ _ _ :=
    writeSecret_ensures requeues known nofun
  refine written.mono ?_ fun _ _ _ => prepared.still.trans
  exact fun _ _ _ ⟨same, fitted⟩ => ⟨same, fitted.after prepared⟩

theorem update_ensures :
    (update settings d id).Ensures (Cluster.api Eq fails) m w
      (fun action _ w' => action = .requeue soon ∧
        Fitted (Cluster.api Eq fails) settings d id m.session w w')
      fun _ _ w' => w.Still w' := by
  have asked : (Target.read id : Op τ (Memory τ) _).Asks fun call => call.IsMild ∧ call.IsCluster :=
    Target.read_asks id ⟨⟨trivial, fun h => h⟩, trivial⟩
  have known : (Target.read id).Ensures (Cluster.api Eq fails) m w
      (fun found m' w' => Prepared m w m' w' ∧ ∀ s, found = some s → w'.state.secrets.get? id = some s)
      fun _ _ w' => w.Still w' :=
    ((Op.Ensures.of_run _ m w).and Target.read_ensures).mono
      (fun _ _ _ ⟨run, _, told⟩ => ⟨.of_run asked (Target.read_leaves id) run, told⟩)
      fun _ _ _ ⟨_, still⟩ => still
  refine .bind known fun found m₁ w₁ ⟨prepared, told⟩ => ?_
  have data (s : Secret) (found : w₁.state.secrets.get? id = some s) : s.IsDistinct :=
    data s (prepared.still.secrets ▸ found)
  have goOn {op : Op τ (Memory τ) (Action τ)}
      (h : op.Ensures (Cluster.api Eq fails) m₁ w₁ (fun action _ w' => action = .requeue soon ∧
        Fitted (Cluster.api Eq fails) settings d id m₁.session w₁ w') fun _ _ w' => w₁.Still w') :
      op.Ensures (Cluster.api Eq fails) m₁ w₁ (fun action _ w' => action = .requeue soon ∧
        Fitted (Cluster.api Eq fails) settings d id m.session w w') fun _ _ w' => w.Still w' :=
    h.mono (fun _ _ _ ⟨same, fitted⟩ => ⟨same, fitted.after prepared⟩) fun _ _ _ => prepared.still.trans
  cases found
  case some => exact goOn (writeSecret_ensures requeues data told)
  case none => exact goOn (create_ensures requeues data)

omit [Timeline τ] requeues data in
theorem lock_ensures {fail : Fault → Memory τ → World τ Cluster → Prop} :
    (lock id : Op τ (Memory τ) Unit).Ensures (Cluster.api Eq fails) m w
      (fun _ m' w' => m'.session = m.session ∧ w' = w) fail := by
  refine (Op.ensures_modify _).mpr ⟨?_, rfl⟩
  split
  all_goals rfl

theorem locked_kept (named : d.id = .ok id) (kept : d.isDeleting = false) :
    (locked settings d).Ensures (Cluster.api Eq fails) m w
      (fun action _ w' => action = .requeue soon ∧
        Fitted (Cluster.api Eq fails) settings d id m.session w w')
      fun _ _ w' => w.Still w' := by
  rw [locked_eq settings named, kept]
  refine .bind lock_ensures fun _ m₁ w₁ ⟨session, same⟩ => ?_
  subst same
  rw [← session]
  cases hasFinalizer defaultFinalizer d.finalizers
  case false => exact create_ensures requeues data
  case true => exact update_ensures requeues data

end

-- What was done by a reconciliation that succeeded, and the time to the next one.
inductive Achieved [Timeline τ] (api : Api Cluster) (settings : Settings τ) (d : Declaration)
    (id : ResourceId) (session : Session τ) (soon : τ) (w : World τ Cluster) :
    Action τ → World τ Cluster → Prop
  | written {w' : World τ Cluster} (kept : d.isDeleting = false)
      (fitted : Fitted api settings d id session w w') :
      Achieved api settings d id session soon w (.requeue soon) w'
  | removed {w' : World τ Cluster} (deleting : d.isDeleting = true) (emptied : w.Emptied id w') :
      Achieved api settings d id session soon w .awaitChange w'

-- A failure comes before the secret is written, unless it was to be removed.
inductive Failed (d : Declaration) (id : ResourceId) (w w' : World τ Cluster) : Prop
  | still (still : w.Still w')
  | removed (deleting : d.isDeleting = true) (emptied : w.Emptied id w')

section

variable {d : Declaration} {id : ResourceId} (secrets : Distinct w.state.secrets)
  (lacks : ∀ {c call fault}, fails c call fault → fault.status? = some 404 → Cluster.Lacks c call)
include secrets lacks

theorem delete_ensures :
    (delete d id : Op τ (Memory τ) (Action τ)).Ensures (Cluster.api Eq fails) m w
      (fun action _ w' => action = .awaitChange ∧ w.Emptied id w')
      fun _ _ w' => w.Still w' ∨ w.Emptied id w' := by
  refine Op.ensures_bind.mpr ((Target.remove_ensures secrets lacks).mono ?_ fun _ _ _ => .inl)
  intro _ m₁ w₁ emptied
  -- From here on no secret is touched.
  have spares : (changeGuard d (Guard.release id defaultFinalizer) : Op τ (Memory τ) Bool).Asks
      fun call => ¬call.WritesSecret :=
    changeGuard_asks d ((Guard.release_asks id _).mono fun _ change => change.isObject.not_writesSecret)
  have released : (changeGuard d (Guard.release id defaultFinalizer)).Ensures (Cluster.api Eq fails) m₁ w₁
      (fun _ _ w' => w.Emptied id w') fun _ _ w' => w.Still w' ∨ w.Emptied id w' :=
    (Op.Ensures.of_run _ m₁ w₁).mono (fun _ _ _ run => emptied.still (spares.unwritten run))
      fun _ _ _ run => .inr (emptied.still (spares.unwritten run))
  exact .bind released fun _ _ _ emptied => (Op.ensures_pure _).mpr ⟨rfl, emptied⟩

variable [Timeline τ] {settings : Settings τ} {soon : τ}
  (requeues : settings.requeueAfter = .lasting soon)
  (data : ∀ s, w.state.secrets.get? id = some s → s.IsDistinct)
include requeues data

theorem locked_ensures (named : d.id = .ok id) :
    (locked settings d).Ensures (Cluster.api Eq fails) m w
      (fun action _ w' => Achieved (Cluster.api Eq fails) settings d id m.session soon w action w')
      fun _ _ w' => Failed d id w w' := by
  cases deleting : d.isDeleting
  case false =>
    refine (locked_kept requeues data named deleting).mono ?_ fun _ _ _ => .still
    exact fun _ _ _ ⟨same, fitted⟩ => same ▸ .written deleting fitted
  case true =>
    rw [locked_eq settings named, deleting]
    refine .bind lock_ensures fun _ m₁ w₁ ⟨_, same⟩ => ?_
    subst same
    refine (delete_ensures secrets lacks).mono
      (fun _ _ _ ⟨same, emptied⟩ => same ▸ .removed deleting emptied) fun _ _ _ failed => ?_
    cases failed
    case inl still => exact .still still
    case inr emptied => exact .removed deleting emptied

-- Only looking at the resource's own memory comes before and after.
theorem reconcile_ensures (named : d.id = .ok id) :
    (reconcile settings d).Ensures (Cluster.api Eq fails) m w
      (fun action _ w' => Achieved (Cluster.api Eq fails) settings d id m.session soon w action w')
      fun _ _ w' => Failed d id w w' := by
  simp only [reconcile, count, Op.ensures_bind, Op.ensures_modify, Op.ensures_attempt, Op.ensures_ofResult]
  exact locked_ensures secrets lacks requeues data named

end
end Reconcile

end SecretSync
