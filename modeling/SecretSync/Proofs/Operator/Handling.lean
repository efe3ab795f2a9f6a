import SecretSync.Proofs.Effect.Keeping
import SecretSync.Proofs.Effect.Leaves
import SecretSync.Proofs.Effect.Possible

/-!
Handling a body. Whatever happens while a resource is reconciled under its lock is all that happens to
the cluster, and the handling goes through the error policy just if that fails. Main statements:
`handle_keepsFrom`, `handle_succeeds`.
-/

namespace SecretSync

-- How often the error policy was gone through.
def Memory.failures {τ : Type} (m : Memory τ) : Nat :=
  m.counters.failures

-- What is not touched once the lock of a resource is there, whatever comes of it.
structure Memory.Beside {τ γ : Type} (f : Memory τ → γ) : Prop where
  session  : ∀ m session, f { m with session } = f m
  counters : ∀ m counters, counters.failures = m.counters.failures → f { m with counters } = f m

-- What a reconciliation does not touch.
structure Memory.Aside {τ γ : Type} (f : Memory τ → γ) : Prop extends Memory.Beside f where
  locks : ∀ m locks, f { m with locks } = f m

theorem Memory.aside_failures {τ : Type} : Memory.Aside (Memory.failures (τ := τ)) :=
  ⟨⟨fun _ _ => rfl, fun _ _ => id⟩, fun _ _ => rfl⟩

theorem Memory.aside_due {τ : Type} : Memory.Aside (Memory.due (τ := τ)) :=
  ⟨⟨fun _ _ => rfl, fun _ _ _ => rfl⟩, fun _ _ => rfl⟩

variable {τ κ : Type}

namespace Reconcile

section

variable {γ : Type} {f : Memory τ → γ}

theorem countOutcome_leaves (beside : Memory.Beside f) (outcome : Target.Outcome) :
    (countOutcome outcome : Op τ (Memory τ) Unit).Leaves f := by
  cases outcome
  case unchanged => exact .pure _
  all_goals exact .modify fun m => beside.counters m _ rfl

theorem delete_leaves (d : Declaration) (id : ResourceId) :
    (delete d id : Op τ (Memory τ) (Action τ)).Leaves f :=
  .bind (Target.remove_leaves id) fun _ => .bind (changeGuard_leaves d _) fun _ => .pure _

theorem lock_leaves (aside : Memory.Aside f) (id : ResourceId) :
    (lock id : Op τ (Memory τ) Unit).Leaves f := by
  refine .modify fun m => ?_
  split
  case isTrue => rfl
  case isFalse => exact aside.locks m _

end

theorem failed_ensures {api : Api κ} (settings : Settings τ) (m : Memory τ) (w : World τ κ) :
    (failed settings).Ensures api m w (fun _ m' _ => m'.failures = m.failures + 1)
      fun _ m' _ => m'.failures = m.failures + 1 := by
  simp only [failed, count, Op.ensures_bind, Op.ensures_modify, Op.ensures_ofResult]
  cases settings.errorRequeueAfter.duration
  case error => exact rfl
  case ok => exact (Op.ensures_pure _).mpr rfl

theorem failed_keepsFrom {api : Api κ} {P : κ → Prop} (settings : Settings τ) {m : Memory τ}
    {w : World τ κ} (hw : P w.state) : (failed settings).KeepsFrom api P m w :=
  .bind_modify (.bind_ofResult hw fun _ _ => .pure hw trivial)

theorem lock_maintains {api : Api κ} {P : κ → Prop} (id : ResourceId) {m : Memory τ} {w : World τ κ}
    (hw : P w.state) : (lock id : Op τ (Memory τ) Unit).Maintains api P m w fun _ m' w' =>
      m'.session = m.session ∧ w' = w := by
  refine .modify hw ⟨?_, rfl⟩
  split
  all_goals rfl

theorem changeGuard_maintains {api : Api κ} {P : κ → Prop} {d : Declaration} {op : Op τ Snapshot Bool}
    {Q : World τ κ → Prop} {m : Memory τ} {w : World τ κ}
    (h : op.Maintains api P d.snapshot w fun _ _ w' => Q w') :
    (changeGuard d op).Maintains api P m w fun _ m' w' => m' = m ∧ Q w' := by
  have apart : (Op.on d.snapshot op : Op τ (Memory τ) _).Maintains api P m w fun found m' w' =>
      m' = m ∧ ∀ a, found.1 = .ok a → Q w' := .on h
  exact .bind apart fun _ _ _ hw ⟨same, post⟩ => .ofResult hw fun a eq => ⟨same, post a eq⟩

variable [Timeline τ] (settings : Settings τ)

-- What follows the assembling of content: the secret is made to hold it.
def store (id : ResourceId) (existing : Option Secret) (content : Content) :
    Op τ (Memory τ) (Action τ) := do
  countOutcome (← Target.ensure id content existing)
  pure (.requeue (← Op.ofResult settings.requeueAfter.duration))

omit [Timeline τ] in
theorem store_inside (id : ResourceId) (existing : Option Secret) (content : Content) :
    (store settings id existing content).Inside :=
  .bind (Target.ensure_asks id content trivial (fun _ => trivial) (fun _ => trivial) existing) fun outcome =>
    .bind (countOutcome_asks outcome) fun _ => .bind (.ofResult _) fun _ => .pure _

omit [Timeline τ] in
-- After the secret, nothing but the memory is changed.
theorem store_maintains {api : Api κ} {P : κ → Prop} {id : ResourceId} {existing : Option Secret}
    {content : Content} {Q : World τ κ → Prop} {m : Memory τ} {w : World τ κ}
    (h : (Target.ensure id content existing).Maintains api P m w fun _ _ w' => Q w') :
    (store settings id existing content).Maintains api P m w fun _ _ w' => Q w' := by
  refine .bind h fun outcome m₁ w₁ hw held => ?_
  have counted : (countOutcome outcome : Op τ (Memory τ) Unit).Maintains api P m₁ w₁ fun _ _ w' =>
      Q w' := by
    cases outcome
    case unchanged => exact .pure hw held
    all_goals exact .modify hw held
  exact .bind counted fun _ _ _ hw held => .bind_ofResult hw fun _ _ => .pure hw held

omit [Timeline τ] in
theorem store_requeues {settings : Settings τ} {soon : τ} (requeues : settings.requeueAfter = .lasting soon)
    {api : Api κ} {id : ResourceId} {existing : Option Secret} {content : Content} {m : Memory τ}
    {w : World τ κ} :
    (store settings id existing content).Ensures api m w (fun action _ _ => action = .requeue soon)
      fun _ _ _ => True := by
  refine .bind (.trivial _ m w) fun outcome m₁ w₁ _ => .bind (.trivial _ m₁ w₁) fun _ _ _ _ => ?_
  refine .bind_ofResult (fun after eq => (Op.ensures_pure _).mpr ?_) fun _ _ => trivial
  rw [requeues] at eq
  cases eq
  rfl

theorem writeSecret_eq (d : Declaration) (id : ResourceId) (existing : Option Secret) :
    writeSecret settings d id existing = assemble settings d >>= store settings id existing :=
  rfl

section

variable {γ : Type} {f : Memory τ → γ}

section

variable (beside : Memory.Beside f)
include beside

theorem writeSecret_leaves (d : Declaration) (id : ResourceId) (existing : Option Secret) :
    (writeSecret settings d id existing).Leaves f :=
  .bind (.within fun session m => beside.session m session) fun _ =>
    .bind (Target.ensure_leaves id _ _) fun _ => .bind (countOutcome_leaves beside _) fun _ =>
      .bind (.ofResult _) fun _ => .pure _

theorem create_leaves (d : Declaration) (id : ResourceId) : (create settings d id).Leaves f :=
  .bind (changeGuard_leaves d _) fun _ => writeSecret_leaves settings beside d id none

theorem update_leaves (d : Declaration) (id : ResourceId) : (update settings d id).Leaves f := by
  refine .bind (Target.read_leaves id) fun existing => ?_
  cases existing
  case none => exact create_leaves settings beside d id
  case some => exact writeSecret_leaves settings beside d id _

end

theorem locked_leavesBeside (beside : Memory.Beside f) {d : Declaration}
    (locks : ∀ id, d.id = .ok id → (lock id : Op τ (Memory τ) Unit).Leaves f) :
    (locked settings d).Leaves f := by
  cases named : d.id
  case error =>
    simp only [locked, named, Op.ofResult_error, Op.throw_bind]
    exact .throw _
  case ok id =>
    rw [locked_eq settings named]
    refine .bind (locks id named) fun _ => ?_
    split
    · exact create_leaves settings beside d id
    · exact update_leaves settings beside d id
    · exact delete_leaves d id

theorem locked_leaves (aside : Memory.Aside f) (d : Declaration) : (locked settings d).Leaves f :=
  locked_leavesBeside settings aside.toBeside fun id _ => lock_leaves aside id

end

section

variable {api : Api κ} {d : Declaration} {m : Memory τ} {w : World τ κ}

theorem run_keepsFrom {P : κ → Prop} (h : ∀ m₁, m₁.session = m.session →
    (locked settings d).KeepsFrom api P m₁ w) : (run settings d).KeepsFrom api P m w := by
  have reconciled : (reconcile settings d).KeepsFrom api P m w :=
    .bind_modify (.bind (.attempt (h _ rfl)) fun _ _ _ hw _ =>
      .bind_modify (.ofResult hw fun _ _ => trivial))
  refine .bind (.attempt reconciled) fun result _ _ hw _ => ?_
  cases result
  case ok => exact .pure hw trivial
  case error => exact failed_keepsFrom settings hw

-- A reconciliation that is not counted as a failure succeeds under the lock.
theorem run_succeeds (d : Declaration) (m : Memory τ) (w : World τ κ) :
    (run settings d).Ensures api m w
      (fun action m' w' => m.failures ≤ m'.failures ∧ (m'.failures = m.failures →
        ∃ m₁ m₂, m₁.session = m.session ∧ (locked settings d).Run api m₁ w (.ok action) m₂ w'))
      fun _ _ _ => True := by
  simp only [run, reconcile, count, Op.ensures_bind, Op.ensures_attempt, Op.ensures_modify]
  refine ((Op.Ensures.of_run _ _ w).and ((locked_leaves settings Memory.aside_failures d).ensures _ w)).mono
    ?_ ?_
  · rintro action m₁ w₁ ⟨run, same⟩
    simp only [Op.ensures_ofResult, Op.outcome_ok, Op.ensures_pure]
    have same : m₁.failures = m.failures := same
    refine ⟨Nat.le_of_eq same.symm, fun _ => ⟨_, m₁, ?_, run⟩⟩
    rfl
  -- A failure under the lock is counted, so it is told apart.
  · rintro fault m₁ w₁ ⟨_, same⟩
    have same : m₁.failures = m.failures := same
    simp only [Op.ensures_ofResult, Op.outcome_error]
    refine (failed_ensures settings _ w₁).mono ?_ fun _ _ _ _ => True.intro
    intro action m₂ _ counted
    have counted : m₂.failures = m₁.failures + 1 := counted
    omega

end
end Reconcile

namespace Operator

variable {api : Api κ} {m : Memory τ} {w : World τ κ}

theorem forget_leaves (id : ResourceId) : (forget id : Op τ (Memory τ) Unit).Leaves Memory.failures :=
  .modify fun _ => rfl

theorem forget_asks {p : Call τ → Prop} (id : ResourceId) :
    (forget id : Op τ (Memory τ) Unit).Asks p :=
  .modify _

theorem failed_asks {p : Call τ → Prop} (settings : Settings τ) : (Reconcile.failed settings).Asks p :=
  .bind (.modify _) fun _ => .bind (.ofResult _) fun _ => .pure _

variable [Timeline τ] (settings : Settings τ)

theorem schedule_leaves (id : ResourceId) (action : Action τ) :
    (schedule id action).Leaves Memory.failures := by
  cases action
  case awaitChange => exact forget_leaves id
  case requeue => exact .bind .now fun _ => .modify fun _ => rfl

theorem schedule_asks {p : Call τ → Prop} (h : p .now) (id : ResourceId) (action : Action τ) :
    (schedule id action).Asks p := by
  cases action
  case awaitChange => exact forget_asks id
  case requeue => exact .bind (.now h) fun _ => .modify _

theorem schedule_outside (id : ResourceId) (action : Action τ) : (schedule id action).Outside :=
  schedule_asks (fun h => h) id action

section

variable {P : κ → Prop} {body : Value}

theorem reconcileBody_keepsFrom (hw : P w.state)
    (h : ∀ d m₁, Declaration.ofBody body = .ok d → m₁.session = m.session →
      (Reconcile.locked settings d).KeepsFrom api P m₁ w) :
    (reconcileBody settings body).KeepsFrom api P m w := by
  simp only [reconcileBody]
  split
  case h_1 d readable =>
    exact .bind (Reconcile.run_keepsFrom settings fun m₁ => h d m₁ readable) fun _ _ _ hw _ =>
      .pure hw trivial
  case h_2 =>
    exact .bind_ofResult hw fun _ _ => .bind_ofResult hw fun _ _ =>
      .bind (Reconcile.failed_keepsFrom settings hw) fun _ _ _ hw _ => .pure hw trivial

theorem onEvent_keepsFrom {event : Value} (hw : P w.state)
    (h : ∀ kind, event.member "type" = .ok kind → kind.same deleted = false →
      (handle settings body).KeepsFrom api P m w) :
    (onEvent settings event body).KeepsFrom api P m w := by
  refine .bind_ofResult hw fun kind told => ?_
  simp only
  split
  case isTrue =>
    exact .bind_ofResult hw fun _ _ => .bind_ofResult hw fun _ _ => .bind_ofResult hw fun _ _ =>
      .modify hw trivial
  case isFalse other =>
    exact .bind (h kind told (Bool.eq_false_iff.mpr other)) fun _ _ _ hw _ => .pure hw trivial

variable (changed : ∀ {k k'}, api.changes k k' → P k → P k')
include changed

theorem handle_keepsFrom (hw : P w.state)
    (h : ∀ d m₁, Declaration.ofBody body = .ok d → m₁.session = m.session →
      (Reconcile.locked settings d).KeepsFrom api P m₁ w) :
    (handle settings body).KeepsFrom api P m w :=
  .bind (reconcileBody_keepsFrom settings hw h) fun found _ _ hw _ => .bind_ofResult hw fun _ _ =>
    .bind (Op.Outside.keeps (schedule_outside _ found.2) changed _ _ hw) fun _ _ _ hw _ => .pure hw trivial

theorem resync_keepsFrom {id : ResourceId}
    (h : (Op.cluster (.getObject id)).Maintains api P m w fun body m₁ w₁ =>
      (handle settings body).KeepsFrom api P m₁ w₁) :
    (resync settings id).KeepsFrom api P m w := by
  refine .bind (.attempt h) fun result m₁ w₁ hw handled => ?_
  cases result
  case ok body => exact handled body rfl
  case error fault =>
    simp only
    split
    case h_1 => exact .throw hw _
    case h_2 status _ =>
      have outside : Op.Outside (τ := τ) (if status = 404 then do
            forget id
            pure .awaitChange
          else do
            let action ← Reconcile.failed settings
            schedule id action
            pure action) :=
        .ite (.bind (forget_asks id) fun _ => .pure _)
          (.bind (failed_asks settings) fun _ => .bind (schedule_outside id _) fun _ => .pure _)
      exact outside.keeps changed m₁ w₁ hw

end

-- What can be done under the lock can be done by handling the body.
theorem handle_permits {P : κ → Prop} {body : Value} {d : Declaration} (still : api.IsStill)
    (readable : Declaration.ofBody body = .ok d)
    (h : ∀ m₁, m₁.session = m.session → (Reconcile.locked settings d).Permits api P m₁ w) :
    (handle settings body).Permits api P m w := by
  have : Nonempty τ := ⟨Timeline.zero⟩
  have reconciled : (Reconcile.reconcile settings d).Permits api P m w :=
    .bind (.modify _) (.bind_outside (.attempt (h _ rfl))
      (fun _ => .bind (.modify _) fun _ => .ofResult _) still)
  have ran : (Reconcile.run settings d).Permits api P m w := by
    refine .bind_outside (.attempt reconciled) (fun result => ?_) still
    cases result
    case ok => exact .pure _
    case error => exact failed_asks settings
  have done : (reconcileBody settings body).Permits api P m w := by
    simp only [reconcileBody, readable]
    exact .bind_outside ran (fun _ => .pure _) still
  refine .bind_outside done (fun found => ?_) still
  exact .bind (.ofResult _) fun _ => .bind (schedule_outside _ found.2) fun _ => .pure _

theorem reconcileBody_succeeds (body : Value) (m : Memory τ) (w : World τ κ) :
    (reconcileBody settings body).Ensures api m w
      (fun found m' w' => m'.failures = m.failures →
        ∃ m₁ m₂, Declaration.ofBody body = .ok found.1 ∧ m₁.session = m.session ∧
          (Reconcile.locked settings found.1).Run api m₁ w (.ok found.2) m₂ w')
      fun _ _ _ => True := by
  simp only [reconcileBody]
  split
  case h_1 d readable =>
    refine Op.ensures_bind.mpr ((Reconcile.run_succeeds settings d m w).mono ?_ ?_)
    · intro action m' w' ⟨_, succeeds⟩
      refine (Op.ensures_pure _).mpr fun same => ?_
      have ⟨m₁, m₂, session, run⟩ := succeeds same
      exact ⟨m₁, m₂, readable, session, run⟩
    · exact fun _ _ _ _ => True.intro
  case h_2 =>
    simp only [Op.ensures_bind, Op.ensures_ofResult]
    cases body.member "metadata"
    case error => exact True.intro
    case ok metadata =>
      simp only [Op.outcome_ok]
      cases Declaration.nameOfBody metadata.orEmpty
      case error => exact True.intro
      case ok name =>
        simp only [Op.outcome_ok]
        refine (Reconcile.failed_ensures settings m w).mono ?_ fun _ _ _ _ => True.intro
        intro _ m' _ counted
        refine (Op.ensures_pure _).mpr fun same => ?_
        omega

-- A handling that is not counted as a failure succeeds under the lock, and all that it does after that is
-- to look at the clock.
theorem handle_succeeds (body : Value) (m : Memory τ) (w : World τ κ) :
    (handle settings body).Ensures api m w
      (fun action m' w' => m'.failures = m.failures →
        ∃ d id m₁ m₂ w₁ m₃ m₄, Declaration.ofBody body = .ok d ∧ d.id = .ok id ∧
          m₁.session = m.session ∧ (Reconcile.locked settings d).Run api m₁ w (.ok action) m₂ w₁ ∧
          (schedule id action).Run api m₃ w₁ (.ok ()) m₄ w')
      fun _ _ _ => True := by
  refine Op.ensures_bind.mpr ((reconcileBody_succeeds settings body m w).mono ?_ fun _ _ _ _ => True.intro)
  rintro ⟨d, action⟩ m₁ w₁ succeeds
  simp only [Op.ensures_bind, Op.ensures_ofResult]
  cases known : d.id
  case error => exact True.intro
  case ok id =>
    simp only [Op.outcome_ok]
    have leaves : (schedule id action).Ensures api m₁ w₁ _ _ :=
      (schedule_leaves id action).ensures m₁ w₁
    refine ((Op.Ensures.of_run _ m₁ w₁).and leaves).mono ?_ fun _ _ _ _ => True.intro
    rintro _ m' w' ⟨scheduled, unchanged⟩
    refine (Op.ensures_pure _).mpr fun same => ?_
    obtain ⟨m₂, m₃, readable, session, run⟩ := succeeds (unchanged.symm.trans same)
    exact ⟨d, id, m₂, m₃, w₁, m₁, m', readable, known, session, run, scheduled⟩

end Operator

end SecretSync
