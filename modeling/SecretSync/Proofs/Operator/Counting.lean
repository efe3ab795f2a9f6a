import SecretSync.Proofs.Cluster.Writes
import SecretSync.Proofs.Effect.Record
import SecretSync.Proofs.Operator.Handling
import SecretSync.Proofs.Operator.Journal

/-!
What is counted while a body is handled. A secret that was created or patched is counted once the cluster has
accepted that, and a handling that ends in the error policy has done neither. Main statements:
`Reconcile.reconcile_counted`, `Operator.handle_handling`.
-/

namespace SecretSync

variable {τ κ σ α : Type}

-- The calls by which a secret comes to hold data.
def Call.Fills : Call τ → Prop
  | .cluster (.createSecret _ _) => True
  | .cluster (.patchSecret _ _) => True
  | _ => False

theorem Call.not_fills_of_not_isCluster {call : Call τ} (h : ¬call.IsCluster) : ¬call.Fills := by
  cases call
  case cluster => exact absurd trivial h
  all_goals exact id

theorem Call.IsObject.not_fills {call : Call τ} (h : call.IsObject) : ¬call.Fills := by
  cases call
  case cluster call =>
    cases call
    case getObject => exact id
    case patchObject => exact id
    all_goals exact h.elim
  all_goals exact h.elim

namespace Step

def isCreation : Step τ κ → Bool
  | ⟨.cluster (.createSecret _ _), .ok _, _, _⟩ => true
  | _ => false

def isAmendment : Step τ κ → Bool
  | ⟨.cluster (.patchSecret _ _), .ok _, _, _⟩ => true
  | _ => false

theorem not_isCreation {step : Step τ κ} (h : ¬step.call.Fills) : step.isCreation = false := by
  cases accepted : step.isCreation
  case false => rfl
  case true =>
    simp only [isCreation] at accepted
    split at accepted
    · exact absurd trivial h
    · cases accepted

theorem not_isAmendment {step : Step τ κ} (h : ¬step.call.Fills) : step.isAmendment = false := by
  cases accepted : step.isAmendment
  case false => rfl
  case true =>
    simp only [isAmendment] at accepted
    split at accepted
    · exact absurd trivial h
    · cases accepted

end Step

namespace World

-- How many secrets were created, and how often a secret was patched.

def creations (w : World τ κ) : Nat :=
  w.steps.countP Step.isCreation

def amendments (w : World τ κ) : Nat :=
  w.steps.countP Step.isAmendment

structure Unfilled (w w' : World τ κ) : Prop where
  creations  : w'.creations = w.creations
  amendments : w'.amendments = w.amendments

theorem Unfilled.trans {w w₁ w' : World τ κ} (h : w.Unfilled w₁) (h' : w₁.Unfilled w') : w.Unfilled w' where
  creations := h'.creations.trans h.creations
  amendments := h'.amendments.trans h.amendments

end World

theorem Op.Asks.unfilled {op : Op τ σ α} {api : Api κ} {s s' : σ} {w w' : World τ κ} {r : Result α}
    (h : op.Asks fun call => ¬call.Fills) (run : op.Run api s w r s' w') : w.Unfilled w' where
  creations := ((h.through run).mono fun _ => Step.not_isCreation).countP_eq
  amendments := ((h.through run).mono fun _ => Step.not_isAmendment).countP_eq

-- What was done to a secret is what the record tells.
def Target.Outcome.Fits (w w' : World τ κ) : Target.Outcome → Prop
  | .created => w'.creations = w.creations + 1 ∧ w'.amendments = w.amendments
  | .patched => w'.creations = w.creations ∧ w'.amendments = w.amendments + 1
  | .unchanged => w.Unfilled w'

theorem Target.Outcome.Fits.after {outcome : Target.Outcome} {w w₁ w' : World τ κ}
    (h : outcome.Fits w₁ w') (unfilled : w.Unfilled w₁) : outcome.Fits w w' := by
  have ⟨creations, amendments⟩ := unfilled
  cases outcome
  case unchanged => exact unfilled.trans h
  all_goals exact ⟨by rw [h.left, creations], by rw [h.right, amendments]⟩

section

variable {api : Api κ} {s : σ} {w : World τ κ}

namespace Target

theorem create_fits (id : ResourceId) (content : Content) :
    (create id content : Op τ σ Unit).Ensures api s w (fun _ s' w' => s' = s ∧ Outcome.created.Fits w w')
      fun _ s' w' => s' = s ∧ w.Unfilled w' := by
  apply Op.Ensures.bind_ofResult
  case hfail => exact fun _ _ => ⟨rfl, rfl, rfl⟩
  intro manifest _
  apply (Op.ensures_cluster _).mpr
  intro reply _ _ _ _
  cases reply
  case ok => exact ⟨rfl, List.countP_append, List.countP_append⟩
  case error => exact ⟨rfl, List.countP_append, List.countP_append⟩

theorem amend_fits (id : ResourceId) (content : Content) (existing : Option Secret) (n : Int) :
    (amend id content existing (some n) : Op τ σ Unit).Ensures api s w
      (fun _ s' w' => s' = s ∧ Outcome.patched.Fits w w') fun _ s' w' => s' = s ∧ w.Unfilled w' := by
  simp only [amend, pure_bind]
  apply Op.Ensures.bind_ofResult
  case hfail => exact fun _ _ => ⟨rfl, rfl, rfl⟩
  intro patch _
  apply (Op.ensures_cluster _).mpr
  intro reply _ _ _ _
  cases reply
  case ok => exact ⟨rfl, List.countP_append, List.countP_append⟩
  case error => exact ⟨rfl, List.countP_append, List.countP_append⟩

theorem update_fits (id : ResourceId) (content : Content) (existing : Secret) :
    (update id content existing : Op τ σ Outcome).Ensures api s w
      (fun outcome s' w' => s' = s ∧ outcome.Fits w w') fun _ s' w' => s' = s ∧ w.Unfilled w' := by
  apply Op.Ensures.bind_ofResult
  case hfail => exact fun _ _ => ⟨rfl, rfl, rfl⟩
  intro fingerprint _
  apply Op.Ensures.bind_ofResult
  case hfail => exact fun _ _ => ⟨rfl, rfl, rfl⟩
  intro recorded _
  split
  case isTrue => exact (Op.ensures_pure _).mpr ⟨rfl, rfl, rfl⟩
  case isFalse =>
    apply (amend_fits id content (some existing) fingerprint).bind
    exact fun _ _ _ fits => (Op.ensures_pure _).mpr fits

theorem ensure_fits (id : ResourceId) (content : Content) (given : Option Secret) :
    (ensure id content given : Op τ σ Outcome).Ensures api s w
      (fun outcome s' w' => s' = s ∧ outcome.Fits w w') fun _ s' w' => s' = s ∧ w.Unfilled w' := by
  cases given
  case some existing =>
    rw [ensure_some]
    exact update_fits id content existing
  case none =>
    have asks : (read id : Op τ σ (Option Secret)).Asks fun call => ¬call.Fills := read_asks id nofun
    have quiet : (read id : Op τ σ (Option Secret)).Ensures api s w (fun _ s' w' => s' = s ∧ w.Unfilled w')
        fun _ s' w' => s' = s ∧ w.Unfilled w' :=
      ((Op.Ensures.of_run _ s w).and ((read_leaves (f := fun s => s) id).ensures s w)).mono
        (fun _ _ _ ⟨run, same⟩ => ⟨same, asks.unfilled run⟩) fun _ _ _ ⟨run, same⟩ => ⟨same, asks.unfilled run⟩
    apply quiet.bind
    intro found s₁ w₁ ⟨same, unfilled⟩
    subst same
    cases found
    case some existing =>
      apply (update_fits id content existing).mono
      case hok => exact fun _ _ _ ⟨same, fits⟩ => ⟨same, fits.after unfilled⟩
      case hfail => exact fun _ _ _ ⟨same, rest⟩ => ⟨same, unfilled.trans rest⟩
    case none =>
      apply Op.ensures_bind.mpr
      apply (create_fits id content).mono
      case hok => exact fun _ _ _ ⟨same, fits⟩ => (Op.ensures_pure _).mpr ⟨same, Outcome.Fits.after fits unfilled⟩
      case hfail => exact fun _ _ _ ⟨same, rest⟩ => ⟨same, unfilled.trans rest⟩

end Target
end

-- So many reconciliations and failures were counted, and of the secrets that were created and patched just
-- those for which that was accepted.
structure Counted (reconciliations failures : Nat) (m : Memory τ) (w : World τ κ) (m' : Memory τ)
    (w' : World τ κ) : Prop where
  reconciliations : m'.counters.reconciliations = m.counters.reconciliations + reconciliations
  failures        : m'.counters.failures = m.counters.failures + failures
  creates         : m'.counters.creates + w.creations = m.counters.creates + w'.creations
  updates         : m'.counters.updates + w.amendments = m.counters.updates + w'.amendments

section

variable {m m₁ m' : Memory τ} {w w₁ w' : World τ κ} {i j k l : Nat}

theorem Counted.trans (h : Counted i j m w m₁ w₁) (h' : Counted k l m₁ w₁ m' w') :
    Counted (i + k) (j + l) m w m' w' := by
  cases h
  cases h'
  constructor
  all_goals omega

theorem World.Unfilled.counted (h : w.Unfilled w') (same : m'.counters = m.counters) :
    Counted 0 0 m w m' w' := by
  cases h
  constructor
  all_goals
    simp only [same]
    omega

theorem Counted.of_run {op : Op τ (Memory τ) α} {api : Api κ} {r : Result α}
    (asks : op.Asks fun call => ¬call.Fills) (leaves : op.Leaves Memory.counters)
    (run : op.Run api m w r m' w') : Counted 0 0 m w m' w' :=
  (asks.unfilled run).counted (leaves.of_run run)

end

namespace Reconcile

variable {api : Api κ} {m : Memory τ} {w : World τ κ} {settings : Settings τ}

-- Nothing was filled by what failed, so there is nothing to count.
abbrev CountedApart (reconciliations failures : Nat) (m : Memory τ) (w : World τ κ) (m' : Memory τ)
    (w' : World τ κ) : Prop :=
  Counted reconciliations failures m w m' w' ∧ w.Unfilled w'

theorem failed_counted : (failed settings).Ensures api m w (fun _ m' w' => CountedApart 0 1 m w m' w')
    fun _ m' w' => CountedApart 0 1 m w m' w' := by
  apply Op.ensures_bind.mpr
  apply (Op.ensures_modify _).mpr
  apply Op.Ensures.bind_ofResult
  case hf => exact fun _ _ => (Op.ensures_pure _).mpr ⟨⟨rfl, rfl, rfl, rfl⟩, rfl, rfl⟩
  case hfail => exact fun _ _ => ⟨⟨rfl, rfl, rfl, rfl⟩, rfl, rfl⟩

theorem countOutcome_counted {outcome : Target.Outcome} {w₁ : World τ κ} (fits : outcome.Fits w w₁) :
    (countOutcome outcome : Op τ (Memory τ) Unit).Ensures api m w₁ (fun _ m' w' => Counted 0 0 m w m' w')
      fun _ _ _ => False := by
  cases outcome
  case unchanged => exact (Op.ensures_pure _).mpr (fits.counted rfl)
  all_goals
    have ⟨creations, amendments⟩ := fits
    apply (Op.ensures_modify _).mpr
    constructor
    all_goals
      simp only
      omega

-- What comes before the secret is filled is not counted.
theorem bind_counted {op : Op τ (Memory τ) α} {β : Type} {f : α → Op τ (Memory τ) β}
    (asks : op.Asks fun call => ¬call.Fills) (leaves : op.Leaves Memory.counters)
    (h : ∀ a m w, (f a).Ensures api m w (fun _ m' w' => Counted 0 0 m w m' w')
      fun _ m' w' => CountedApart 0 0 m w m' w') :
    (op >>= f).Ensures api m w (fun _ m' w' => Counted 0 0 m w m' w')
      fun _ m' w' => CountedApart 0 0 m w m' w' := by
  apply Op.ensures_bind.mpr
  apply (Op.Ensures.of_run op m w).mono
  case hfail => exact fun _ _ _ run => ⟨.of_run asks leaves run, asks.unfilled run⟩
  intro a m₁ w₁ run
  apply (h a m₁ w₁).mono
  case hok => exact fun _ _ _ counted => (Counted.of_run asks leaves run).trans counted
  case hfail =>
    exact fun _ _ _ ⟨counted, unfilled⟩ =>
      ⟨(Counted.of_run asks leaves run).trans counted, (asks.unfilled run).trans unfilled⟩

section

variable {soon : τ} (requeues : settings.requeueAfter = .lasting soon)
include requeues

theorem store_counted (id : ResourceId) (existing : Option Secret) (content : Content) :
    (store settings id existing content).Ensures api m w (fun _ m' w' => Counted 0 0 m w m' w')
      fun _ m' w' => CountedApart 0 0 m w m' w' := by
  apply Op.ensures_bind.mpr
  apply (Target.ensure_fits id content existing).mono
  case hfail => exact fun _ _ _ ⟨same, unfilled⟩ => ⟨unfilled.counted (congrArg _ same), unfilled⟩
  intro outcome m₁ w₁ ⟨same, fits⟩
  subst same
  apply Op.ensures_bind.mpr
  apply (countOutcome_counted fits).mono
  case hfail => exact fun _ _ _ => False.elim
  intro _ m' w' counted
  rw [requeues]
  exact Op.ensures_bind.mpr ((Op.ensures_ofResult _).mpr ((Op.ensures_pure _).mpr counted))

variable [Timeline τ]

theorem writeSecret_counted (d : Declaration) (id : ResourceId) (existing : Option Secret) :
    (writeSecret settings d id existing).Ensures api m w (fun _ m' w' => Counted 0 0 m w m' w')
      fun _ m' w' => CountedApart 0 0 m w m' w' := by
  rw [writeSecret_eq]
  apply bind_counted
  case asks => exact (assemble_outside settings d).mono fun _ => Call.not_fills_of_not_isCluster
  case leaves => exact .within fun _ _ => rfl
  case h => exact fun content _ _ => store_counted requeues id existing content

theorem create_counted (d : Declaration) (id : ResourceId) :
    (create settings d id).Ensures api m w (fun _ m' w' => Counted 0 0 m w m' w')
      fun _ m' w' => CountedApart 0 0 m w m' w' := by
  apply bind_counted
  case asks => exact changeGuard_asks d ((Guard.add_asks id _).mono fun _ change => change.isObject.not_fills)
  case leaves => exact changeGuard_leaves d _
  case h => exact fun _ _ _ => writeSecret_counted requeues d id none

theorem update_counted (d : Declaration) (id : ResourceId) :
    (update settings d id).Ensures api m w (fun _ m' w' => Counted 0 0 m w m' w')
      fun _ m' w' => CountedApart 0 0 m w m' w' := by
  apply bind_counted
  case asks => exact Target.read_asks id nofun
  case leaves => exact Target.read_leaves id
  case h =>
    intro existing _ _
    cases existing
    case none => exact create_counted requeues d id
    case some => exact writeSecret_counted requeues d id _

omit [Timeline τ] requeues in
theorem delete_counted (d : Declaration) (id : ResourceId) :
    (delete d id : Op τ (Memory τ) (Action τ)).Ensures api m w (fun _ m' w' => Counted 0 0 m w m' w')
      fun _ m' w' => CountedApart 0 0 m w m' w' := by
  apply bind_counted
  case asks => exact Target.remove_asks id nofun
  case leaves => exact Target.remove_leaves id
  case h =>
    intro _ m₁ w₁
    apply bind_counted
    case asks =>
      exact changeGuard_asks d ((Guard.release_asks id _).mono fun _ change => change.isObject.not_fills)
    case leaves => exact changeGuard_leaves d _
    case h => exact fun _ _ _ => (Op.ensures_pure _).mpr ⟨rfl, rfl, rfl, rfl⟩

theorem locked_counted (d : Declaration) :
    (locked settings d).Ensures api m w (fun _ m' w' => Counted 0 0 m w m' w')
      fun _ m' w' => CountedApart 0 0 m w m' w' := by
  apply Op.Ensures.bind_ofResult
  case hfail => exact fun _ _ => ⟨⟨rfl, rfl, rfl, rfl⟩, rfl, rfl⟩
  intro id _
  apply bind_counted
  case asks => exact .modify _
  case leaves =>
    apply Op.Leaves.modify
    intro m
    split
    all_goals rfl
  case h =>
    intro _ _ _
    split
    · exact create_counted requeues d id
    · exact update_counted requeues d id
    · exact delete_counted d id

theorem reconcile_counted (d : Declaration) :
    (reconcile settings d).Ensures api m w (fun _ m' w' => Counted 1 0 m w m' w')
      fun _ m' w' => CountedApart 1 0 m w m' w' := by
  have before (m : Memory τ) : Counted 1 0 m w
      { m with counters := { m.counters with reconciliations := m.counters.reconciliations + 1 } } w :=
    ⟨rfl, rfl, rfl, rfl⟩
  have after {m₁ : Memory τ} {w₁ : World τ κ} : Counted 0 0 m₁ w₁
      { m₁ with counters := { m₁.counters with timed := m₁.counters.timed + 1 } } w₁ :=
    ⟨rfl, rfl, rfl, rfl⟩
  simp only [reconcile, count, Op.ensures_bind, Op.ensures_modify, Op.ensures_attempt, Op.ensures_ofResult]
  apply (locked_counted requeues d).mono
  case hok => exact fun _ _ _ counted => (before m).trans (counted.trans after)
  case hfail =>
    exact fun _ _ _ ⟨counted, unfilled⟩ => ⟨(before m).trans (counted.trans after), unfilled⟩

end
end Reconcile

namespace Operator

variable [Timeline τ]

-- The error policy can say whose failure it is.
def HasName (body : Value) : Prop :=
  ∃ metadata name, body.member "metadata" = .ok metadata ∧
    Declaration.nameOfBody metadata.orEmpty = .ok name

-- A handling between `w` and `w'` that ends in the error policy: the body cannot be read, or reconciling
-- what it declares fails.
inductive Faltered (api : Api κ) (settings : Settings τ) (body : Value) (m : Memory τ) (w w' : World τ κ) :
    Prop
  | unread {fault : Fault} (unreadable : Declaration.ofBody body = .error fault) (named : HasName body)
  | failed {d : Declaration} {fault : Fault} {m₁ : Memory τ} {w₁ : World τ κ}
      (readable : Declaration.ofBody body = .ok d)
      (run : (Reconcile.reconcile settings d).Run api m w (.error fault) m₁ w₁) (before : w₁.Before w')

-- The same, with what is counted.
inductive Handling (api : Api κ) (settings : Settings τ) (body : Value) (m : Memory τ) (w : World τ κ)
    (m' : Memory τ) (w' : World τ κ) : Prop
  | raised {fault : Fault} (unreadable : Declaration.ofBody body = .error fault) (unnamed : ¬HasName body)
      (counted : Counted 0 0 m w m' w')
  | unread {fault : Fault} (unreadable : Declaration.ofBody body = .error fault) (named : HasName body)
      (counted : Reconcile.CountedApart 0 1 m w m' w')
  | reconciled {d : Declaration} {action : Action τ} {m₁ : Memory τ} {w₁ : World τ κ}
      (readable : Declaration.ofBody body = .ok d)
      (run : (Reconcile.reconcile settings d).Run api m w (.ok action) m₁ w₁) (before : w₁.Before w')
      (counted : Counted 1 0 m w m' w')
  | failed {d : Declaration} {fault : Fault} {m₁ : Memory τ} {w₁ : World τ κ}
      (readable : Declaration.ofBody body = .ok d)
      (run : (Reconcile.reconcile settings d).Run api m w (.error fault) m₁ w₁) (before : w₁.Before w')
      (counted : Reconcile.CountedApart 1 1 m w m' w')

variable {api : Api κ} {settings : Settings τ} {body : Value} {m m₁ m' : Memory τ} {w w₁ w' : World τ κ}

-- What comes after the handling proper is neither counted nor does it fill a secret.
theorem Handling.after (h : Handling api settings body m w m₁ w₁) (counted : Counted 0 0 m₁ w₁ m' w')
    (unfilled : w₁.Unfilled w') (before : w₁.Before w') : Handling api settings body m w m' w' := by
  cases h
  case raised unreadable unnamed first => exact .raised unreadable unnamed (first.trans counted)
  case unread unreadable named first =>
    exact .unread unreadable named ⟨first.left.trans counted, first.right.trans unfilled⟩
  case reconciled readable run early first =>
    exact .reconciled readable run (early.trans before) (first.trans counted)
  case failed readable run early first =>
    exact .failed readable run (early.trans before) ⟨first.left.trans counted, first.right.trans unfilled⟩

-- What neither counts nor fills anything comes after it.
theorem Handling.then {α : Type} {op : Op τ (Memory τ) α} (h : Handling api settings body m w m₁ w₁)
    (asks : op.Asks fun call => ¬call.Fills) (leaves : op.Leaves Memory.counters) :
    op.Ensures api m₁ w₁ (fun _ m' w' => Handling api settings body m w m' w')
      fun _ m' w' => Handling api settings body m w m' w' := by
  apply (Op.Ensures.of_run op m₁ w₁).mono
  all_goals exact fun _ _ _ run => h.after (.of_run asks leaves run) (asks.unfilled run) run.before

theorem schedule_leavesCounters (id : ResourceId) (action : Action τ) :
    (schedule id action).Leaves Memory.counters := by
  cases action
  case awaitChange => exact .modify fun _ => rfl
  case requeue => exact .bind .now fun _ => .modify fun _ => rfl

omit [Timeline τ] in
theorem dismiss_asks {p : Call τ → Prop} (id : ResourceId) : (dismiss id : Op τ (Memory τ) (Action τ)).Asks p :=
  .bind (forget_asks id) fun _ => .pure _

omit [Timeline τ] in
theorem dismiss_leaves (id : ResourceId) : (dismiss id : Op τ (Memory τ) (Action τ)).Leaves Memory.counters :=
  .bind (.modify fun _ => rfl) fun _ => .pure _

theorem retry_counted (id : ResourceId) :
    (retry settings id).Ensures api m w (fun _ m' w' => Reconcile.CountedApart 0 1 m w m' w')
      fun _ m' w' => Reconcile.CountedApart 0 1 m w m' w' := by
  apply Op.ensures_bind.mpr
  apply Reconcile.failed_counted.mono
  case hfail => exact fun _ _ _ policy => policy
  intro action m₁ w₁ ⟨counted, unfilled⟩
  have asks : Op.Asks (fun call => ¬call.Fills) (schedule id action >>= fun _ => pure action) :=
    .bind (schedule_asks nofun id action) fun _ => .pure _
  have leaves : Op.Leaves Memory.counters (schedule id action >>= fun _ => pure action) :=
    .bind (schedule_leavesCounters id action) fun _ => .pure _
  apply (Op.Ensures.of_run _ m₁ w₁).mono
  all_goals
    exact fun _ _ _ run => ⟨counted.trans (.of_run asks leaves run), unfilled.trans (asks.unfilled run)⟩

section

variable {soon : τ} (requeues : settings.requeueAfter = .lasting soon)
include requeues

theorem reconcileBody_handling :
    (reconcileBody settings body).Ensures api m w (fun _ m' w' => Handling api settings body m w m' w')
      fun _ m' w' => Handling api settings body m w m' w' := by
  simp only [reconcileBody]
  split
  case h_1 d readable =>
    simp only [Reconcile.run, Op.ensures_bind, Op.ensures_attempt]
    apply ((Op.Ensures.of_run _ m w).and (Reconcile.reconcile_counted requeues d)).mono
    case hok =>
      rintro action m₁ w₁ ⟨run, counted⟩
      simp only [Op.ensures_pure]
      exact .reconciled readable run (.refl _) counted
    case hfail =>
      rintro fault m₁ w₁ ⟨run, counted, unfilled⟩
      have failed {m' : Memory τ} {w' : World τ κ} (before : w₁.Before w')
          (policy : Reconcile.CountedApart 0 1 m₁ w₁ m' w') : Handling api settings body m w m' w' :=
        .failed readable run before ⟨counted.trans policy.left, unfilled.trans policy.right⟩
      apply ((Op.Ensures.of_run _ m₁ w₁).and Reconcile.failed_counted).mono
      case hok =>
        rintro _ _ _ ⟨run, policy⟩
        exact (Op.ensures_pure _).mpr (failed run.before policy)
      case hfail =>
        rintro _ _ _ ⟨run, policy⟩
        exact failed run.before policy
  case h_2 fault unreadable =>
    have raised (unnamed : ¬HasName body) : Handling api settings body m w m w :=
      .raised unreadable unnamed ⟨rfl, rfl, rfl, rfl⟩
    apply Op.Ensures.bind_ofResult
    case hfail =>
      intro _ missing
      apply raised
      rintro ⟨_, _, told, _⟩
      simp [told] at missing
    intro metadata told
    apply Op.Ensures.bind_ofResult
    case hfail =>
      intro _ missing
      apply raised
      rintro ⟨_, _, told', named⟩
      cases told.symm.trans told'
      simp [named] at missing
    intro name named
    have unread {m' : Memory τ} {w' : World τ κ} (policy : Reconcile.CountedApart 0 1 m w m' w') :
        Handling api settings body m w m' w' :=
      .unread unreadable ⟨metadata, name, told, named⟩ policy
    apply Op.ensures_bind.mpr
    apply Reconcile.failed_counted.mono
    case hok => exact fun _ _ _ policy => (Op.ensures_pure _).mpr (unread policy)
    case hfail => exact fun _ _ _ => unread

theorem handle_handling {r : Result (Action τ)} (run : (handle settings body).Run api m w r m' w') :
    Handling api settings body m w m' w' := by
  have handling : (handle settings body).Ensures api m w (fun _ m' w' => Handling api settings body m w m' w')
      fun _ m' w' => Handling api settings body m w m' w' := by
    apply Op.ensures_bind.mpr
    apply (reconcileBody_handling requeues).mono
    case hfail => exact fun _ _ _ => id
    intro (d, action) _ _ handled
    apply handled.then
    case asks => exact .bind (.ofResult _) fun _ => .bind (schedule_asks nofun _ action) fun _ => .pure _
    case leaves =>
      exact .bind (.ofResult _) fun _ => .bind (schedule_leavesCounters _ action) fun _ => .pure _
  have ended := handling _ _ _ run
  cases r
  all_goals exact ended

end
end Operator
end SecretSync
