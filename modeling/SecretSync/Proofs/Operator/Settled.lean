import SecretSync.Proofs.Cluster.Renewal
import SecretSync.Proofs.Guard.Keeping
import SecretSync.Proofs.Operator.Atomic

/-!
A resource that has been handled is settled: handling it again changes nothing, as long as the same content
is put together for it. Main statement: `handle_settled`.
-/

namespace SecretSync

open Table (Distinct)
open Cluster (HasMetadata Stored Accepts Renews nameOf)

variable {τ σ α : Type} {fails : Cluster → ClusterCall → Fault → Prop}

-- The calls that change nothing in the cluster.
def Call.IsReading : Call τ → Prop
  | .cluster (.readSecret _) => True
  | .cluster (.getObject _) => True
  | .cluster _ => False
  | _ => True

theorem Call.isReading_of_not_isCluster {call : Call τ} (h : ¬call.IsCluster) : call.IsReading := by
  cases call
  case cluster => exact absurd trivial h
  all_goals exact trivial

theorem Op.Asks.state_eq {op : Op τ σ α} (h : op.Asks Call.IsReading) {s s' : σ} {w w' : World τ Cluster}
    {r : Result α} (run : op.Run (Cluster.api Eq fails) s w r s' w') : w'.state = w.state := by
  have keeps : op.Keeps (Cluster.api Eq fails) fun c => c = w.state := by
    apply Op.Asks.keeps h fun same held => same ▸ held
    intro c call reply c' reading replied held
    cases reply
    case error => exact replied.right ▸ held
    case ok =>
      cases call
      case readSecret => exact replied.right ▸ held
      case getObject => exact replied.right ▸ held
      all_goals exact reading.elim
  exact ((keeps s w rfl).kept run).left

-- What was done to secrets, and what failed.
def Memory.done (m : Memory τ) : Nat × Nat × Nat :=
  (m.counters.creates, m.counters.updates, m.counters.failures)

-- The cluster is only read, and nothing is done.
structure Idle (m : Memory τ) (w : World τ Cluster) (m' : Memory τ) (w' : World τ Cluster) : Prop where
  state : w'.state = w.state
  calls : w.Through (fun step => step.call.IsReading) w'
  done  : m'.done = m.done

namespace Idle

variable {m m₁ m' : Memory τ} {w w₁ w' : World τ Cluster}

theorem trans (h₁ : Idle m w m₁ w₁) (h₂ : Idle m₁ w₁ m' w') : Idle m w m' w' :=
  ⟨h₂.state.trans h₁.state, h₁.calls.trans h₂.calls, h₂.done.trans h₁.done⟩

theorem of_run {op : Op τ (Memory τ) α} {r : Result α} (asks : op.Asks Call.IsReading)
    (leaves : op.Leaves Memory.done) (run : op.Run (Cluster.api Eq fails) m w r m' w') : Idle m w m' w' :=
  ⟨asks.state_eq run, asks.through run, leaves.of_run run⟩

end Idle

-- What is there is read, if only what is not there is refused.
theorem Target.read_present {id : ResourceId} {secret : Secret} {s : σ} {w : World τ Cluster}
    (lacks : ∀ {c call fault}, fails c call fault → Cluster.Lacks c call)
    (live : w.state.secrets.get? id = some secret) :
    (read id : Op τ σ _).Ensures (Cluster.api Eq fails) s w (fun found _ _ => found = some secret)
      fun _ _ _ => False := by
  refine Op.ensures_bind.mpr ((Op.ensures_attempt _).mpr ((Cluster.ensures_call _).mpr ?_))
  intro before same
  subst same
  refine ⟨fun answer after ⟨found, _⟩ => ?_, fun fault failed => ?_⟩
  · exact (Op.ensures_pure _).mpr (found.symm.trans live)
  · have absent : w.state.secrets.get? id = none := lacks failed
    rw [live] at absent
    cases absent

namespace Reconcile

variable [Timeline τ] {settings : Settings τ} {d : Declaration} {id : ResourceId} {soon : τ}
  {content : Content} {m : Memory τ} {w : World τ Cluster}

omit [Timeline τ] in
-- A secret that records the content it is to hold is left alone.
theorem store_recorded (requeues : settings.requeueAfter = .lasting soon) {s : Secret}
    (records : s.Records content) {content' : Content} (distinct : Distinct content)
    (same : content'.Perm content) :
    store settings id (some s) content' = pure (.requeue soon) := by
  have ⟨n, fingerprint, recorded⟩ := records
  have fingerprint' := Content.fingerprint_eq_of_perm fingerprint same.symm distinct
  simp only [store, Target.ensure_some, Target.update, fingerprint', recorded, Op.ofResult_ok, pure_bind,
    if_true, countOutcome, requeues, Span.duration_lasting]

-- What comes of reconciling a resource whose secret records `content`. If that is put together again, there
-- is nothing to do.
structure Settles (api : Api Cluster) (settings : Settings τ) (d : Declaration) (content : Content) (soon : τ)
    (m : Memory τ) (w : World τ Cluster) (result : Result (Action τ)) (m' : Memory τ)
    (w' : World τ Cluster) : Prop where
  action : ∀ action, result = .ok action → action = .requeue soon
  idle   : ∃ composed, Composed api settings d m.session w w' composed ∧
    ∀ content', composed = .ok content' → content'.Perm content →
      (∃ action, result = .ok action) ∧ Idle m w m' w'

theorem Settles.after {api : Api Cluster} {m₁ m' : Memory τ} {w₁ w' : World τ Cluster}
    {result : Result (Action τ)} (h : Settles api settings d content soon m₁ w₁ result m' w')
    (idle : Idle m w m₁ w₁) (inside : w.Through (fun step => step.call.IsCluster) w₁)
    (session : m₁.session = m.session) : Settles api settings d content soon m w result m' w' where
  action := h.action
  idle :=
    have ⟨composed, found, settles⟩ := h.idle
    ⟨composed, session ▸ found.widen inside (.refl w'), fun content' eq same =>
      ⟨(settles content' eq same).left, idle.trans (settles content' eq same).right⟩⟩

theorem Settles.congr {api : Api Cluster} {m' m'' : Memory τ} {w' : World τ Cluster}
    {result : Result (Action τ)} (h : Settles api settings d content soon m w result m' w')
    (same : m''.done = m'.done) : Settles api settings d content soon m w result m'' w' where
  action := h.action
  idle :=
    have ⟨composed, found, settles⟩ := h.idle
    ⟨composed, found, fun content' eq perm =>
      have ⟨ok, idle⟩ := settles content' eq perm
      ⟨ok, idle.state, idle.calls, same.trans idle.done⟩⟩

theorem assemble_idle :
    (assemble settings d).Ensures (Cluster.api Eq fails) m w
      (fun content' m' w' => Idle m w m' w' ∧
        Composed (Cluster.api Eq fails) settings d m.session w w' (.ok content'))
      fun fault _ w' => Composed (Cluster.api Eq fails) settings d m.session w w' (.error fault) := by
  have reading : (assemble settings d).Asks Call.IsReading :=
    (assemble_outside settings d).mono fun _ => Call.isReading_of_not_isCluster
  apply ((Op.Ensures.of_run _ m w).and assemble_composed).mono
  case hok => exact fun _ _ _ ⟨run, composed⟩ => ⟨.of_run reading (.within fun _ _ => rfl) run, composed⟩
  case hfail => exact fun _ _ _ ⟨_, composed⟩ => composed

variable (requeues : settings.requeueAfter = .lasting soon) (distinct : Distinct content)
include requeues distinct

theorem store_settles {s : Secret} (records : s.Records content) {content' : Content} {m₁ : Memory τ}
    {w₁ : World τ Cluster} (idle : Idle m w m₁ w₁)
    (composed : Composed (Cluster.api Eq fails) settings d m.session w w₁ (.ok content')) :
    (store settings id (some s) content').Ensures (Cluster.api Eq fails) m₁ w₁
      (fun action m' w' => Settles (Cluster.api Eq fails) settings d content soon m w (.ok action) m' w')
      fun fault m' w' => Settles (Cluster.api Eq fails) settings d content soon m w (.error fault) m' w' := by
  by_cases same : content'.Perm content
  case pos =>
    rw [store_recorded requeues records distinct same]
    refine (Op.ensures_pure _).mpr ⟨fun _ eq => (Except.ok.inj eq).symm, _, composed, fun _ _ _ => ?_⟩
    exact ⟨⟨_, rfl⟩, idle⟩
  case neg =>
    -- What is written then is another matter.
    have inside {r : Result (Action τ)} {m' : Memory τ} {w' : World τ Cluster}
        (run : (store settings id (some s) content').Run (Cluster.api Eq fails) m₁ w₁ r m' w') :
        Composed (Cluster.api Eq fails) settings d m.session w w' (.ok content') :=
      composed.widen (.refl w) ((store_inside settings id (some s) content').through run)
    have other {content'' : Content} (eq : (.ok content' : Result Content) = .ok content'') :
        ¬content''.Perm content :=
      Except.ok.inj eq ▸ same
    apply ((Op.Ensures.of_run _ m₁ w₁).and (store_requeues requeues)).mono
    case hok =>
      intro action m' w' ⟨run, later⟩
      exact ⟨fun _ eq => Except.ok.inj eq ▸ later, _, inside run, fun _ eq same => absurd same (other eq)⟩
    case hfail =>
      intro fault m' w' ⟨run, _⟩
      exact ⟨nofun, _, inside run, fun _ eq same => absurd same (other eq)⟩

theorem writeSecret_settles {s : Secret} (records : s.Records content) :
    (writeSecret settings d id (some s)).Ensures (Cluster.api Eq fails) m w
      (fun action m' w' => Settles (Cluster.api Eq fails) settings d content soon m w (.ok action) m' w')
      fun fault m' w' => Settles (Cluster.api Eq fails) settings d content soon m w (.error fault) m' w' := by
  rw [writeSecret_eq]
  apply Op.ensures_bind.mpr
  apply assemble_idle.mono
  case hok => exact fun _ _ _ ⟨idle, composed⟩ => store_settles requeues distinct records idle composed
  case hfail => exact fun _ _ _ composed => ⟨nofun, _, composed, nofun⟩

variable {s : Secret} (records : s.Records content) (live : w.state.secrets.get? id = some s)
  (lacks : ∀ {c call fault}, fails c call fault → Cluster.Lacks c call)
include records live lacks

theorem update_settles :
    (update settings d id).Ensures (Cluster.api Eq fails) m w
      (fun action m' w' => Settles (Cluster.api Eq fails) settings d content soon m w (.ok action) m' w')
      fun fault m' w' => Settles (Cluster.api Eq fails) settings d content soon m w (.error fault) m' w' := by
  have present : (Target.read id : Op τ (Memory τ) _).Ensures (Cluster.api Eq fails) m w _ _ :=
    Target.read_present lacks live
  refine Op.ensures_bind.mpr (((Op.Ensures.of_run _ m w).and present).mono ?_ fun _ _ _ h => h.right.elim)
  intro found m₁ w₁ ⟨run, read⟩
  subst read
  have inside := (Target.read_asks (p := Call.IsCluster) id trivial).through run
  have session := (Target.read_leaves id).of_run (f := Memory.session) run
  have idle : Idle m w m₁ w₁ := .of_run (Target.read_asks id trivial) (Target.read_leaves id) run
  refine (writeSecret_settles requeues distinct records).mono ?_ ?_
  · exact fun _ _ _ settles => settles.after idle inside session
  · exact fun _ _ _ settles => settles.after idle inside session

theorem reconcile_settles (named : d.id = .ok id) (kept : d.isDeleting = false)
    (guarded : .text defaultFinalizer ∈ d.finalizers) :
    (reconcile settings d).Ensures (Cluster.api Eq fails) m w
      (fun action m' w' => Settles (Cluster.api Eq fails) settings d content soon m w (.ok action) m' w')
      fun fault m' w' => Settles (Cluster.api Eq fails) settings d content soon m w (.error fault) m' w' := by
  have phase : Phase.of d.isDeleting (hasFinalizer defaultFinalizer d.finalizers) = .update := by
    simp [Phase.of, kept, hasFinalizer_iff.mpr guarded]
  simp only [reconcile, count, Op.ensures_bind, Op.ensures_modify, Op.ensures_attempt, Op.ensures_ofResult,
    locked_eq settings named, phase, Op.outcome_ok, Op.outcome_error, lock]
  refine (update_settles requeues distinct records live lacks).mono ?_ ?_
  all_goals
    intro _ m' w' settles
    refine (settles.after ⟨rfl, .refl w, ?_⟩ (.refl w) ?_).congr rfl
    all_goals
      split
      all_goals rfl

end Reconcile

namespace Cluster

variable {c c' : Cluster} {id : ResourceId} {body : Value}

-- The resource has been written nothing but lists of finalizers since it had this body.
def IsRenewed (body : Value) (id : ResourceId) (c : Cluster) : Prop :=
  ∃ body', c.objects.get? id = some body' ∧ Renews body body'

-- And it has the guard.
def IsReady (body : Value) (id : ResourceId) (c : Cluster) : Prop :=
  ∃ body', c.objects.get? id = some body' ∧ Renews body body' ∧ .text defaultFinalizer ∈ finalizers body'

theorem IsReady.isRenewed (h : IsReady body id c) : IsRenewed body id c :=
  have ⟨body', live, renews, _⟩ := h
  ⟨body', live, renews⟩

-- A resource that is not being deleted is not dropped.
theorem IsRenewed.added {members : Table Text Value} (metadata : HasMetadata body members)
    (kept : isDeleting body = false) {s : Snapshot} {told : Value} (h : IsRenewed body id c)
    (accepted : Accepts c (.patchObject id ((Guard.addition defaultFinalizer).patch s)) told c') :
    IsReady body id c' := by
  have ⟨body', live, renews⟩ := h
  have ⟨_, version, found, _, stored⟩ := accepted
  rw [live] at found
  cases found
  have ⟨_, metadata'⟩ := renews.hasMetadata metadata
  cases stored
  case kept =>
    refine ⟨_, Table.get?_put_self .., renews.patched _ version, ?_⟩
    exact (finalizers_patched metadata').symm ▸ Guard.mem_added ..
  case dropped deleting _ =>
    rw [metadata'.isDeleting_patched, renews.isDeleting_eq metadata, kept] at deleting
    cases deleting

end Cluster

open Cluster (IsRenewed IsReady)

namespace Reconcile

variable [Timeline τ] {settings : Settings τ} {d : Declaration} {id : ResourceId} {m : Memory τ}
  {w : World τ Cluster} {body : Value} {members : Table Text Value}

theorem writeSecret_apart (existing : Option Secret) :
    (writeSecret settings d id existing).Asks fun call => ¬call.IsObject :=
  .bind ((assemble_outside settings d).mono fun _ outside object => outside object.isCluster) fun content =>
    .bind (Target.ensure_asks (p := fun call => ¬call.IsObject) id content (fun h => h) (fun _ h => h)
      (fun _ h => h) existing) fun outcome => .bind (countOutcome_asks outcome) fun _ =>
        .bind (.ofResult _) fun _ => .pure _

omit [Timeline τ] in
theorem keeps_ready_of_asks {op : Op τ (Memory τ) α} (h : op.Asks fun call => ¬call.IsObject) :
    op.Keeps (Cluster.api Eq fails) (IsReady body id) := by
  apply Op.Asks.keeps h fun same held => same ▸ held
  intro c call reply c' apart replied held
  cases reply
  case error => exact replied.right ▸ held
  case ok answer =>
    have accepted : Accepts c call answer c' := replied
    rw [IsReady, accepted.objects_eq apart]
    exact held

variable (metadata : HasMetadata body members) (kept : Cluster.isDeleting body = false)
include metadata kept

theorem create_ready (hw : IsRenewed body id w.state)
    (known : .text defaultFinalizer ∈ d.finalizers → IsReady body id w.state) :
    (create settings d id).Maintains (Cluster.api Eq fails) (IsRenewed body id) m w
      fun _ _ w' => IsReady body id w'.state := by
  have guarded : (Guard.add id defaultFinalizer : Op τ Snapshot Bool).Maintains (Cluster.api Eq fails)
      (IsRenewed body id) d.snapshot w fun _ _ w' => IsReady body id w'.state :=
    Guard.add_maintains hw known fun held accepted =>
      have ready := held.added metadata kept accepted
      ⟨ready.isRenewed, ready⟩
  refine .bind (changeGuard_maintains guarded) fun _ m₁ w₁ _ ⟨_, ready⟩ => ?_
  apply Op.Maintains.of_keepsFrom (keeps_ready_of_asks (writeSecret_apart none) m₁ w₁ ready)
  exact fun _ ready => ready.isRenewed

theorem update_ready (hw : IsReady body id w.state) :
    (update settings d id).Maintains (Cluster.api Eq fails) (IsRenewed body id) m w
      fun _ _ w' => IsReady body id w'.state := by
  have read : (Target.read id : Op τ (Memory τ) _).Keeps (Cluster.api Eq fails) (IsReady body id) :=
    keeps_ready_of_asks (Target.read_asks id fun h => h)
  apply (Op.Maintains.of_keepsFrom (read m w hw) fun _ ready => ready.isRenewed).bind
  intro found m₁ w₁ renewed ready
  cases found
  case none => exact create_ready metadata kept renewed fun _ => ready
  case some existing =>
    exact .of_keepsFrom (keeps_ready_of_asks (writeSecret_apart (some existing)) m₁ w₁ ready)
      fun _ ready => ready.isRenewed

theorem locked_ready (live : w.state.objects.get? id = some body) (named : d.id = .ok id)
    (readable : Declaration.ofBody body = .ok d) :
    (locked settings d).Maintains (Cluster.api Eq fails) (IsRenewed body id) m w
      fun _ _ w' => IsReady body id w'.state := by
  have ⟨_, snapshot, deleting⟩ := metadata.declaration readable
  have listed : d.finalizers = Cluster.finalizers body := congrArg Snapshot.finalizers snapshot
  have known (has : .text defaultFinalizer ∈ d.finalizers) : IsReady body id w.state :=
    ⟨body, live, .refl, listed ▸ has⟩
  have renewed : IsRenewed body id w.state := ⟨body, live, .refl⟩
  rw [locked_eq settings named, deleting, kept]
  refine .bind (lock_maintains id renewed) fun _ m₁ w₁ _ ⟨_, same⟩ => ?_
  subst same
  cases has : hasFinalizer defaultFinalizer d.finalizers
  case false => exact create_ready metadata kept renewed known
  case true => exact update_ready metadata kept (known (hasFinalizer_iff.mp has))

end Reconcile

namespace Operator

variable [Timeline τ] {settings : Settings τ} {d : Declaration} {id : ResourceId} {soon late : τ}
  {content : Content} {m : Memory τ} {w : World τ Cluster}

-- Handling a resource that is settled.

section

variable (lasts : settings.Lasts soon late) (distinct : Distinct content) {s : Secret}
  (records : s.Records content) (live : w.state.secrets.get? id = some s)
  (lacks : ∀ {c call fault}, fails c call fault → Cluster.Lacks c call) (named : d.id = .ok id)
  (kept : d.isDeleting = false) (guarded : .text defaultFinalizer ∈ d.finalizers) {body : Value}
  (readable : Declaration.ofBody body = .ok d)
include lasts distinct records live lacks named kept guarded readable

theorem readAndReconcile_settles {done : Result (Action τ)} {m₁ : Memory τ} {w₁ : World τ Cluster}
    (run : (readAndReconcile settings body).Run (Cluster.api Eq fails) m w done m₁ w₁) :
    Reconcile.Settles (Cluster.api Eq fails) settings d content soon m w done m₁ w₁ := by
  simp only [readAndReconcile, readable, Op.ofResult_ok, pure_bind] at run
  have settles := Reconcile.reconcile_settles lasts.success distinct records live lacks named kept guarded
    done m₁ w₁ run
  cases done
  all_goals exact settles

theorem handle_idle {members : Table Text Value} (metadata : HasMetadata body members)
    {r : Result (Action τ)} {m' : Memory τ} {w' : World τ Cluster} {content' : Content}
    (run : (handle settings body).Run (Cluster.api Eq fails) m w r m' w')
    (composed : Composed (Cluster.api Eq fails) settings d m.session w w' (.ok content'))
    (same : content'.Perm content) : r = .ok (.requeue soon) ∧ Idle m w m' w' := by
  have told : nameOf members = .ok id := (metadata.declaration readable).left.symm.trans named
  have ended := handle_concludes lasts metadata told r m' w' run
  cases r
  case error => exact ended.elim
  case ok action =>
    obtain ⟨done, m₁, w₁, m₂, first, concludes, scheduling⟩ := ended
    have settles : Reconcile.Settles (Cluster.api Eq fails) settings d content soon m w done m₁ w₁ :=
      readAndReconcile_settles lasts distinct records live lacks named kept guarded readable first
    -- Whether it failed or not, the clock was looked at in the end.
    have ⟨after, later⟩ : ∃ after, action = .requeue after := by
      cases done
      case ok a => exact ⟨soon, (concludes.ok a rfl).left.trans (settles.action a rfl)⟩
      case error fault => exact ⟨late, (concludes.error fault rfl).left⟩
    have ⟨step, now, steps⟩ := (schedule_ensures action _ _ _ scheduling).right after later
    have ⟨composed', found, idle⟩ := settles.idle
    have eq : composed' = .ok content' := Composed.unique ⟨w₁, step, found, now, steps⟩ composed
    have ⟨⟨a, ok⟩, idle⟩ := idle content' eq same
    have ⟨same, counted⟩ := concludes.ok a ok
    have outside := (schedule_outside id action).mono fun _ => Call.isReading_of_not_isCluster
    refine ⟨congrArg _ (same.trans (settles.action a ok)), ?_, ?_, ?_⟩
    · exact (outside.state_eq scheduling).trans idle.state
    · exact idle.calls.trans (outside.through scheduling)
    · rw [← idle.done, Memory.done, counted]
      rfl

end

-- Handling the resource as it is finds nothing to do, with nothing refused, if the same content is put
-- together again.
def IsSettled (settings : Settings τ) (id : ResourceId) (sources : List Source) (content : Content)
    (action : Action τ) (c : Cluster) : Prop :=
  ∃ body d, c.objects.get? id = some body ∧ Declaration.ofBody body = .ok d ∧ d.sources = sources ∧
    ∀ m w r m' w' content', w.state = c → (handle settings body).Run Cluster.honest m w r m' w' →
      Composed Cluster.honest settings d m.session w w' (.ok content') → content'.Perm content →
      r = .ok action ∧ Idle m w m' w'

theorem handle_settled (lasts : settings.Lasts soon late) {body : Value} (stored : Stored id body)
    (live : w.state.objects.get? id = some body) (kept : Cluster.isDeleting body = false)
    (data : ∀ id s, w.state.secrets.get? id = some s → s.IsDistinct)
    {action : Action τ} {m' : Memory τ} {w' : World τ Cluster}
    (run : (handle settings body).Run (Cluster.api Eq fails) m w (.ok action) m' w')
    (succeeded : m'.failures = m.failures) :
    ∃ d content, Declaration.ofBody body = .ok d ∧
      Composed (Cluster.api Eq fails) settings d m.session w w' (.ok content) ∧
      IsSettled settings id d.sources content action w'.state := by
  obtain ⟨d, own, m₁, m₂, w₁, m₃, m₄, readable, named, session, locked, scheduled⟩ :=
    handle_succeeds settings body m w _ _ _ run succeeded
  obtain ⟨members, other, metadata, told, same⟩ := stored
  have ⟨tells, _, deleting⟩ := metadata.declaration readable
  have eq : own = other := Except.ok.inj (named.symm.trans (tells.trans told))
  subst eq
  have live : w.state.objects.get? own = some body := Table.get?_congr same _ ▸ live
  have ⟨later, content, composed, ensured⟩ :=
    Reconcile.locked_kept lasts.success (data own) named (deleting.trans kept) _ _ _ locked
  have ⟨_, body', live', renews, guard⟩ :=
    Reconcile.locked_ready metadata kept live named readable _ _ _ locked
  have ⟨d', readable', id', sources⟩ := renews.declaration metadata readable
  have ⟨_, metadata'⟩ := renews.hasMetadata metadata
  have ⟨_, snapshot, deleting'⟩ := metadata'.declaration readable'
  have ⟨step, now, steps⟩ := (schedule_ensures action _ _ _ scheduled).right soon later
  have outside := (schedule_outside own action).mono fun _ => Call.isReading_of_not_isCluster
  have unchanged : w'.state = w₁.state := outside.state_eq scheduled
  have ⟨s, held, records⟩ := ensured.records
  have distinct := composed.distinct
  have composed : Composed (Cluster.api Eq fails) settings d m.session w w' (.ok content) :=
    ⟨w₁, step, session ▸ composed, now, steps⟩
  refine ⟨d, content, readable, composed, body', d', ?_, readable', sources, ?_⟩
  · rw [unchanged, ← Table.get?_congr same]
    exact live'
  · intro m₂ w₂ r m₂' w₂' content' begins run' composed' perm
    have held : w₂.state.secrets.get? own = some s := by rw [begins, unchanged, held]
    have listed : d'.finalizers = Cluster.finalizers body' := congrArg Snapshot.finalizers snapshot
    have kept' := deleting'.trans ((renews.isDeleting_eq metadata).trans kept)
    rw [later]
    exact handle_idle lasts distinct records held (fun failed => failed.left) (id'.trans named) kept'
      (listed ▸ guard) readable' metadata' run' composed' perm

-- Nothing but what it declares is put together for it.
theorem Composed.eq_of_plain {api : Api κ} {session : Session τ} {w w' : World τ κ} {r : Result Content}
    (h : Composed api settings d session w w' r) (plain : d.sources = plainSources) : r = .ok plainContent := by
  have ⟨_, _, ⟨_, _, _, _, run, _⟩, _⟩ := h
  rw [plain, assemble_plain] at run
  exact (Op.Run.eq_of_ofResult run).left

-- The first handling makes the secret, which has one entry, and the second one ends well.

theorem handled_plain {w : World Int Cluster} (same : w.state = (handled "Plaintext").2.1) :
    w.state.objects.get? guardedId = some (guardedBody "Plaintext") ∧
      w.state.secrets.get? guardedId ≠ none ∧
      ∀ id s, w.state.secrets.get? id = some s → s.IsDistinct := by
  obtain ⟨labels, made⟩ : ∃ labels, (handled "Plaintext").2.1.secrets =
      [(guardedId, ⟨labels, some [(.text "user", "a25vd24=")]⟩)] := ⟨_, rfl⟩
  rw [same, made]
  refine ⟨rfl, nofun, fun id s found => ?_⟩
  obtain ⟨_, mem, _⟩ := Table.exists_mem_of_get? found
  cases List.mem_singleton.mp mem
  exact ⟨rfl, trivial⟩

theorem handledAgain_plain : ∃ action, (handledAgain "Plaintext").1.1 = .ok action := by
  have ended : (handledAgain "Plaintext").1.1.toOption.isSome := by decide +kernel
  have ⟨action, ended⟩ := Option.isSome_iff_exists.mp ended
  exact ⟨action, Result.toOption_eq_some_iff.mp ended⟩

-- The secret that is made is left alone then.
theorem handle_settled_made : ∃ (m m' : Memory Int) (w w' : World Int Cluster) (d : Declaration)
      (content : Content),
    (handle Settings.inSeconds (guardedBody "Plaintext")).Run Cluster.honest .start
        ⟨guardedStart "Plaintext", []⟩ (.ok (.requeue 20)) m w ∧
      w.state.secrets.get? guardedId ≠ none ∧ Declaration.ofBody (guardedBody "Plaintext") = .ok d ∧
      Composed Cluster.honest Settings.inSeconds d Memory.start.session ⟨guardedStart "Plaintext", []⟩ w
        (.ok content) ∧
      IsSettled Settings.inSeconds guardedId d.sources content (.requeue 20) w.state ∧
      (handle Settings.inSeconds (guardedBody "Plaintext")).Run Cluster.honest m w (.ok (.requeue 20)) m' w' ∧
      Composed Cluster.honest Settings.inSeconds d m.session w w' (.ok content) ∧ Idle m w m' w' := by
  obtain ⟨d, readable, _, _, _, plain⟩ := plainBody_readable
  have ⟨w, run, same⟩ := Cluster.exists_run_honest (w := ⟨guardedStart "Plaintext", []⟩)
    (y := handled "Plaintext") rfl rfl rfl
  have fine : (handledAgain "Plaintext").2.2 = true := by decide +kernel
  have ⟨w', again, _⟩ := Cluster.exists_run_honest (y := handledAgain "Plaintext") rfl same fine
  have ⟨action, ended⟩ := handledAgain_plain
  have succeeded : (handledAgain "Plaintext").1.2.failures = (handled "Plaintext").1.2.failures := by
    decide +kernel
  rw [ended] at again
  have ⟨live, made, data⟩ := handled_plain same
  have stored : Stored guardedId (guardedBody "Plaintext") := stored_guardedStart (live_guardedStart _)
  have lasts : Settings.inSeconds.Lasts 20 300 := ⟨rfl, rfl⟩
  obtain ⟨_, _, readable₁, composed, settled⟩ :=
    handle_settled lasts stored (live_guardedStart _) rfl (fun _ _ => free_guardedStart) run rfl
  obtain ⟨_, _, readable₂, composed', _⟩ := handle_settled lasts stored live rfl data again succeeded
  -- Both times the body says the same, and the same is put together for it.
  cases readable.symm.trans readable₁
  cases readable.symm.trans readable₂
  cases composed.eq_of_plain plain
  cases composed'.eq_of_plain plain
  have ⟨_, _, found, readable₃, _, idle⟩ := settled
  cases live.symm.trans found
  cases readable.symm.trans readable₃
  have ⟨requeued, idle⟩ := idle _ _ _ _ _ _ rfl again composed' (.refl _)
  cases requeued
  exact ⟨_, _, w, w', d, _, run, made, readable, composed, settled, again, composed', idle⟩

end Operator

end SecretSync
