import SecretSync.Proofs.Effect.Record
import SecretSync.Proofs.Operator.Contained
import SecretSync.Proofs.Operator.Journal

/-!
What an operator remembers of resources: when they are due, and that there are locks for them. Nothing is
remembered of a resource but what the last call that concerned it has come to. Main statement:
`Operator.remembers_of_journal`.
-/

namespace SecretSync

open Table (Distinct)
open Cluster (IsNamed ReadsMetadata Stored keyOf nameOf)

variable {τ κ : Type}

-- The locks for other resources.
def Memory.otherLocks (id : ResourceId) (m : Memory τ) : List ResourceId :=
  m.locks.filter fun other => !(other == id)

theorem Memory.beside_otherLocks (id : ResourceId) : Memory.Beside (Memory.otherLocks (τ := τ) id) :=
  ⟨fun _ _ => rfl, fun _ _ _ => rfl⟩

theorem Reconcile.lock_leavesOthers (id : ResourceId) :
    (lock id : Op τ (Memory τ) Unit).Leaves (Memory.otherLocks id) := by
  refine .modify fun m => ?_
  split
  case isTrue => rfl
  case isFalse => simp [Memory.otherLocks]

namespace Operator

-- What is remembered of a resource after a call that concerned it.
structure Filed (id : ResourceId) (action : Action τ) (m m' : Memory τ) : Prop where
  due      : m'.due.get? id ≠ none ↔ ∃ after, action = .requeue after
  unlocked : action = .awaitChange → ∀ other ∈ m'.locks, (other == id) = false
  others   : ∀ other, (id == other) = false → m'.due.get? other = m.due.get? other
  locks    : m'.otherLocks id = m.otherLocks id
  distinct : Distinct m'.due

variable {id : ResourceId} {m m₁ m' : Memory τ} {action : Action τ}

theorem Filed.after (h : Filed id action m₁ m') (due : m₁.due = m.due)
    (locks : m₁.otherLocks id = m.otherLocks id) : Filed id action m m' where
  due := h.due
  unlocked := h.unlocked
  others other apart := (h.others other apart).trans (due ▸ rfl)
  locks := h.locks.trans locks
  distinct := h.distinct

theorem Filed.congr {other : ResourceId} (h : Filed id action m m') (same : (id == other) = true) :
    Filed other action m m' := by
  have apart (key : ResourceId) : (key == id) = (key == other) := BEq.congr_right same
  have apart' (key : ResourceId) : (id == key) = (other == key) := BEq.congr_left same
  constructor
  case due => exact Table.get?_congr same m'.due ▸ h.due
  case unlocked => exact fun waits key mem => apart key ▸ h.unlocked waits key mem
  case others => exact fun key ne => h.others key (apart' key ▸ ne)
  case locks => simpa [Memory.otherLocks, apart] using h.locks
  case distinct => exact h.distinct

variable [Timeline τ] {settings : Settings τ} {api : Api κ} {w : World τ κ}

theorem schedule_files (distinct : Distinct m.due) :
    (schedule id action).Ensures api m w (fun _ m' _ => Filed id action m m') fun _ _ _ => False := by
  have leaves : (schedule id action).Leaves (Memory.otherLocks id) := by
    cases action
    case awaitChange => exact .modify fun _ => by simp [Memory.otherLocks]
    case requeue => exact .bind .now fun _ => .modify fun _ => rfl
  apply ((schedule_schedules action distinct).and (leaves.ensures m w)).mono
  case hfail => exact fun _ _ _ => And.left
  intro _ m' w' ⟨⟨noted, others, distinct⟩, locks⟩
  constructor
  case due =>
    cases noted
    case due found => simp [found]
    case nothing absent _ => simp [absent]
  case unlocked =>
    intro waits
    subst waits
    cases noted
    case nothing lock => exact lock
  case others => exact others
  case locks => exact locks
  case distinct => exact distinct

variable {body : Value} {members : Table Text Value} {soon late : τ}

theorem handle_files (lasts : settings.Lasts soon late) (reads : ReadsMetadata body members)
    (named : nameOf members = .ok id) (distinct : Distinct m.due) :
    (handle settings body).Ensures api m w (fun action m' _ => Filed id action m m') fun _ _ _ => False := by
  apply (handle_schedules lasts reads named).mono
  case hfail => exact fun _ _ _ never => never
  intro action m' w' ⟨done, m₁, w₁, m₂, run, concluding, _, scheduling⟩
  have due : m₂.due = m.due :=
    ((conclude_leaves (f := Memory.due) (fun _ _ => rfl) done).of_run concluding).trans
      ((readAndReconcile_leavesAside Memory.aside_due).of_run run)
  have lockLeaves (d : Declaration) (own : ResourceId) (readable : Declaration.ofBody body = .ok d)
      (known : d.id = .ok own) :
      (Reconcile.lock own : Op τ (Memory τ) Unit).Leaves (Memory.otherLocks id) := by
    cases (named.symm.trans (reads.declaration readable).left.symm).trans known
    exact Reconcile.lock_leavesOthers id
  have locks : m₂.otherLocks id = m.otherLocks id :=
    ((conclude_leaves (f := Memory.otherLocks id) (fun _ _ => rfl) done).of_run concluding).trans
      ((readAndReconcile_leavesBeside (Memory.beside_otherLocks id) lockLeaves).of_run run)
  have filed : Filed id action m₂ m' := schedule_files (due ▸ distinct) _ _ _ scheduling
  exact filed.after due locks

omit [Timeline τ] in
theorem dismissNamed_eq (reads : ReadsMetadata body members) (named : nameOf members = .ok id) :
    (dismissNamed body : Op τ (Memory τ) (Action τ)) = dismiss id := by
  obtain ⟨outer, eq, found⟩ := reads
  have read : body.member Cluster.metadataName = .ok ((outer.get? Cluster.metadataName).getD .null) := by
    simp [eq, Value.member]
  simp only [nameOf, Result.bind_eq_ok_iff] at named
  obtain ⟨_, told, known⟩ := named
  simp only [dismissNamed, read, Op.ofResult_ok, pure_bind, found, told, known]

theorem scheduled_files (distinct : Distinct m.due) :
    (schedule id action >>= fun _ => pure action).Ensures api m w (fun a m' _ => Filed id a m m')
      fun _ m' _ => m' = m := by
  apply Op.ensures_bind.mpr
  apply (schedule_files distinct).mono
  case hok => exact fun _ _ _ filed => (Op.ensures_pure _).mpr filed
  case hfail => exact fun _ _ _ => False.elim

theorem retry_files (lasts : settings.Lasts soon late) (distinct : Distinct m.due) :
    (retry settings id).Ensures api m w (fun action m' _ => Filed id action m m') fun _ m' _ => m' = m := by
  apply Op.ensures_bind.mpr
  simp only [Reconcile.failed, Reconcile.count, Op.ensures_bind, Op.ensures_modify, lasts.failure]
  apply (Op.ensures_ofResult _).mpr
  apply (Op.ensures_pure _).mpr
  refine (schedule_files ?distinct).mono ?hok ?hfail
  case hok => exact fun _ _ _ filed => (Op.ensures_pure _).mpr (filed.after rfl rfl)
  case hfail => exact fun _ _ _ => False.elim
  case distinct => exact distinct

theorem dismiss_files (distinct : Distinct m.due) :
    (dismiss id).Ensures api m w (fun action m' _ => Filed id action m m') fun _ m' _ => m' = m := by
  have scheduled : (schedule id .awaitChange >>= fun _ => pure .awaitChange).Ensures api m w
      (fun action m' _ => Filed id action m m') fun _ m' _ => m' = m := scheduled_files distinct
  exact scheduled

theorem resync_files (lasts : settings.Lasts soon late)
    (stored : ∀ {k k' body}, api.replies k (.getObject id) (.ok body) k' → Stored id body)
    (distinct : Distinct m.due) :
    (resync settings id).Ensures api m w (fun action m' _ => Filed id action m m') fun _ m' _ => m' = m := by
  have told : (Op.cluster (.getObject id) : Op τ (Memory τ) Value).Ensures api m w
      (fun body _ _ => Stored id body) fun _ _ _ => True := by
    apply (Op.ensures_cluster _).mpr
    intro reply _ _ _ replied
    cases reply
    case ok => exact stored replied
    case error => exact trivial
  apply resync_ensures
  case fetched =>
    intro body w₁ read
    have ⟨members, own, metadata, named, same⟩ : Stored id body := told _ _ _ read
    apply (handle_files lasts metadata.reads named distinct).mono
    case hok => exact fun _ _ _ filed => filed.congr same
    case hfail => exact fun _ _ _ => False.elim
  case gone => exact fun _ _ _ _ => dismiss_files distinct
  case refused => exact fun _ _ _ _ _ _ => retry_files lasts distinct
  case lost => exact fun _ _ _ _ => rfl

theorem reaction_files (lasts : settings.Lasts soon late) (reads : ReadsMetadata body members)
    (named : nameOf members = .ok id) (distinct : Distinct m.due) (event : Value) :
    (reaction settings event body).Ensures api m w (fun action m' _ => Filed id action m m')
      fun _ m' _ => m' = m := by
  apply Op.Ensures.bind_ofResult
  case hfail => exact fun _ _ => rfl
  intro kind _
  split
  case isTrue =>
    rw [dismissNamed_eq reads named]
    exact dismiss_files distinct
  case isFalse =>
    apply (handle_files lasts reads named distinct).mono
    case hok => exact fun _ _ _ filed => filed
    case hfail => exact fun _ _ _ => False.elim

-- The key of the resource that a body tells of.
def keyOfBody (body : Value) : ResourceId :=
  match (Cluster.metadata body).orEmpty with
  | .object members => keyOf members
  | _ => keyOf []

theorem keyOfBody_eq (reads : ReadsMetadata body members) : keyOfBody body = keyOf members := by
  obtain ⟨outer, eq, found⟩ := reads
  have found : (Cluster.metadata body).orEmpty = .object members := by
    simpa [Cluster.metadata, eq, Value.member] using found
  simp only [keyOfBody, found]

-- The body is read as one with metadata, in which the name and the namespace are texts or left out.
def TellsName (body : Value) : Prop :=
  ∃ members, ReadsMetadata body members ∧ IsNamed members

-- The resource that a call concerns.
def Job.key : Job τ → ResourceId
  | .handle body => keyOfBody body
  | .resync id => id
  | .react _ body => keyOfBody body
  | .schedule id _ => id
  | .forget id => id

def Job.TellsName : Job τ → Prop
  | .handle body => Operator.TellsName body
  | .react _ body => Operator.TellsName body
  | _ => True

-- The ways that calls have ended which did not fail, the newest first.
def endings (entries : List (Entry τ κ)) : Table ResourceId (Action τ) :=
  entries.filterMap fun e =>
    match e.result with
    | .ok action => some (e.job.key, action)
    | .error _ => none

-- The call has told that the resource is gone, or that there is nothing to do until its next change.
inductive Entry.Removes (api : Api κ) : Entry τ κ → Prop
  | deleted {event body kind : Value} {m m' : Memory τ} {w w' : World τ κ} {r : Result (Action τ)}
      (told : event.member "type" = .ok kind) (same : kind.same Operator.deleted = true) :
      Removes api ⟨.react event body, m, w, r, m', w'⟩
  | gone {id : ResourceId} {fault : Fault} {m m' : Memory τ} {w w₁ w' : World τ κ} {r : Result (Action τ)}
      (refused : Fetches api m w id (.error fault) w₁)
      (before : w₁.Before w') (missing : fault.status? = some 404) :
      Removes api ⟨.resync id, m, w, r, m', w'⟩
  | awaits {e : Entry τ κ} (result : e.result = .ok .awaitChange) : Removes api e

omit [Timeline τ] in
theorem dismiss_awaits {r : Result (Action τ)} {w' : World τ κ} (run : (dismiss id).Run api m w r m' w') :
    r = .ok .awaitChange := by
  have awaits : (dismiss id).Ensures api m w (fun action _ _ => action = .awaitChange) fun _ _ _ => False := by
    simp only [dismiss, forget, Op.ensures_bind, Op.ensures_modify, Op.ensures_pure]
  have ended := awaits r m' w' run
  cases r
  case ok => exact congrArg _ ended
  case error => exact ended.elim

theorem reaction_deleted (reads : ReadsMetadata body members) (named : nameOf members = .ok id)
    {event kind : Value} (told : event.member "type" = .ok kind) (same : kind.same deleted = true) :
    reaction settings event body = dismiss id := by
  simp only [reaction, told, Op.ofResult_ok, pure_bind, same, if_true, dismissNamed_eq reads named]

theorem resync_awaits {fault : Fault} {w₁ : World τ κ}
    (refused : Fetches api m w id (.error fault) w₁)
    (missing : fault.status? = some 404) : ∀ r m' w', (resync settings id).Run api m w r m' w' →
      w₁.Before w' → r = .ok .awaitChange := by
  refine Op.ensures_iff_forall.mp ?_
  -- It was refused for the same reason.
  have same {found : Result Value} {w₂ w' : World τ κ}
      (run : Fetches api m w id found w₂) (rest : w₂.Before w')
      (before : w₁.Before w') : found = .error fault :=
    (run.unique_of_before refused rest before).left
  apply resync_ensures
  case fetched =>
    intro body w₂ read
    apply (Op.Ensures.of_run (handle settings body) m w₂).mono
    all_goals
      intro _ _ _ run before
      cases same read run.before before
  case gone =>
    intro _ w₂ _ _
    apply (Op.Ensures.of_run (dismiss id) m w₂).mono
    all_goals exact fun _ _ _ run _ => dismiss_awaits run
  case refused =>
    intro _ w₂ status failed told other
    apply (Op.Ensures.of_run (retry settings id) m w₂).mono
    all_goals
      intro _ _ _ run before
      cases same failed run.before before
      exact absurd (Option.some.inj (told.symm.trans missing)) other
  case lost =>
    intro _ w₂ failed lost before
    cases same failed (.refl w₂) before
    cases lost.symm.trans missing

theorem awaits_of_removes {job : Job τ} {r : Result (Action τ)} {w' : World τ κ} (named : job.TellsName)
    (run : (job.op settings).Run api m w r m' w')
    (removes : Entry.Removes api ⟨job, m, w, r, m', w'⟩) : r = .ok .awaitChange := by
  cases removes with
  | deleted told same =>
    have ⟨members, reads, named⟩ := named
    have run : (reaction settings _ _).Run api m w r m' w' := run
    rw [reaction_deleted reads named.nameOf_eq told same] at run
    exact dismiss_awaits run
  | gone refused before missing => exact resync_awaits refused missing _ _ _ run before
  | awaits result => exact result

-- What an operator remembers after all these calls.
structure Remembers (entries : List (Entry τ κ)) (m : Memory τ) : Prop where
  locks    : ∀ id ∈ m.locks, m.due.get? id ≠ none
  due      : ∀ id, m.due.get? id ≠ none ↔ ∃ after, (endings entries).get? id = some (.requeue after)
  distinct : Distinct m.due

-- Nothing is remembered of a resource.
def Forgets (id : ResourceId) (m : Memory τ) : Prop :=
  m.due.get? id = none ∧ ∀ other ∈ m.locks, (other == id) = false

omit [Timeline τ] in
theorem Remembers.filed {entries : List (Entry τ κ)} {e : Entry τ κ} (h : Remembers entries e.before)
    (result : e.result = .ok action) (filed : Filed e.job.key action e.before e.after) :
    Remembers (e :: entries) e.after := by
  have endings_eq : endings (e :: entries) = (e.job.key, action) :: endings entries := by
    simp [endings, result]
  constructor
  case due =>
    intro id
    rw [endings_eq, Table.get?]
    split
    case isTrue same =>
      rw [← Table.get?_congr same, filed.due]
      simp
    case isFalse apart => rw [filed.others id (Bool.eq_false_iff.mpr apart), h.due]
  case locks =>
    intro id mem
    have unlocked : action = .awaitChange → (id == e.job.key) = false :=
      fun awaits => filed.unlocked awaits id mem
    cases same : e.job.key == id
    case true =>
      -- The call has made the resource due, as it would have dropped the lock otherwise.
      rw [← Table.get?_congr same]
      apply filed.due.mpr
      cases action
      case requeue after => exact ⟨after, rfl⟩
      case awaitChange => simp [BEq.symm same] at unlocked
    case false =>
      have other : id ∈ e.after.otherLocks e.job.key := by simp [Memory.otherLocks, mem, BEq.symm_false same]
      rw [filed.locks] at other
      rw [filed.others id same]
      exact h.locks id (List.mem_of_mem_filter other)
  case distinct => exact filed.distinct

omit [Timeline τ] in
theorem Remembers.failed {entries : List (Entry τ κ)} {e : Entry τ κ} (h : Remembers entries e.before)
    {fault : Fault} (result : e.result = .error fault) (same : e.after = e.before) :
    Remembers (e :: entries) e.after := by
  have endings_eq : endings (e :: entries) = endings entries := by
    simp [endings, result]
  rw [same]
  exact ⟨h.locks, endings_eq ▸ h.due, h.distinct⟩

omit [Timeline τ] in
theorem Filed.forgets (filed : Filed id action m m') (awaits : action = .awaitChange) : Forgets id m' := by
  constructor
  case left =>
    refine Classical.not_not.mp fun kept => ?_
    have ⟨_, requeues⟩ := filed.due.mp kept
    cases awaits.symm.trans requeues
  case right => exact filed.unlocked awaits

-- Nothing is remembered of a resource that is gone or awaits its next change, and a call that fails changes
-- nothing.
structure Entry.Settles (api : Api κ) (e : Entry τ κ) : Prop where
  removed : e.Removes api → Forgets e.job.key e.after
  failed  : ∀ fault, e.result = .error fault → e.after = e.before

section

variable (lasts : settings.Lasts soon late)
  (stored : ∀ {k k' id body}, api.replies k (.getObject id) (.ok body) k' → Stored id body)
include lasts stored

theorem op_files {job : Job τ} (named : job.TellsName) (distinct : Distinct m.due) :
    (job.op settings).Ensures api m w (fun action m' _ => Filed job.key action m m') fun _ m' _ => m' = m := by
  cases job
  case handle body =>
    have ⟨members, reads, named⟩ := named
    rw [Job.key, keyOfBody_eq reads]
    apply (handle_files lasts reads named.nameOf_eq distinct).mono
    case hok => exact fun _ _ _ filed => filed
    case hfail => exact fun _ _ _ => False.elim
  case resync id => exact resync_files lasts stored distinct
  case react event body =>
    have ⟨members, reads, named⟩ := named
    rw [Job.key, keyOfBody_eq reads]
    exact reaction_files lasts reads named.nameOf_eq distinct event
  case schedule id action => exact scheduled_files distinct
  case forget id => exact dismiss_files distinct

theorem remembers_of_journal {between : κ → κ → Prop} {start : κ} {entries : List (Entry τ κ)}
    (h : Journal settings api between start entries m w) (named : ∀ e ∈ entries, e.job.TellsName) :
    Remembers entries m ∧ ∀ e ∈ entries, e.Settles api := by
  induction h
  case blank =>
    constructor
    case left =>
      refine ⟨fun _ mem => ?_, fun id => by simp [endings, Table.get?, Memory.start], trivial⟩
      cases mem
    case right => simp
  case changed hi => exact hi named
  case done entries job m m' w w' r _ run hi =>
    obtain ⟨remembers, settles⟩ := hi fun e mem => named e (.tail _ mem)
    have tells : job.TellsName := named _ (.head _)
    have awaits := awaits_of_removes tells run
    have files := op_files lasts stored tells remembers.distinct (w := w) _ _ _ run
    cases r
    case ok action =>
      constructor
      case left => exact remembers.filed rfl files
      case right =>
        apply List.forall_mem_cons.mpr ⟨?_, settles⟩
        refine ⟨fun removes => files.forgets (Except.ok.inj (awaits removes)), fun _ failed => ?_⟩
        cases failed
    case error fault =>
      constructor
      case left => exact remembers.failed rfl files
      case right =>
        apply List.forall_mem_cons.mpr ⟨?_, settles⟩
        refine ⟨fun removes => ?_, fun _ _ => files⟩
        cases awaits removes

end

-- A cluster that may reply anything, but tells of a resource under its own name.
def naming : Api Unit where
  changes _ _ := True
  replies _ call reply _ := match call, reply with
    | .getObject id, .ok body => Stored id body
    | _, _ => True

def deletionEvent : Value := .object [("type", deleted)]

theorem handle_marked (m : Memory Int) (w : World Int Unit) :
    ∃ m' w', (handle Settings.inSeconds markedBody).Run naming m w (.ok (.requeue 300)) m' w' := by
  have reads : ReadsMetadata markedBody markedMetadata := ⟨_, rfl, rfl⟩
  have read : (readAndReconcile Settings.inSeconds markedBody).Run naming m w (.error .unreadable) m w :=
    .bind_error (.ofResult (.error .unreadable))
  have concluded : (conclude Settings.inSeconds (.error .unreadable)).Run naming m w (.ok (.requeue 300)) _ w :=
    .bind (.modify _) (.bind (.ofResult (.ok 300)) (.pure (Action.requeue 300)))
  have changed : naming.changes w.state w.state := trivial
  have looked {m : Memory Int} : (Op.now : Op Int (Memory Int) Int).Run naming m w (.ok 0) m
      (w.next .now 0 w.state w.state) := .now changed
  rw [handle_eq Settings.inSeconds reads markedMetadata_named.nameOf_eq]
  exact ⟨_, _, .bind (.attempt read) (.bind concluded (.bind (.bind looked (.modify _)) (.pure _)))⟩

-- The resource is handled, and then it is gone.
theorem remembers_of_journal_deleted : ∃ (entries : List (Entry Int Unit)) (m : Memory Int) (w : World Int Unit),
    Journal Settings.inSeconds naming (fun _ _ => True) () entries m w ∧ entries.length = 2 ∧
      (∀ e ∈ entries, e.job.TellsName) ∧ (∃ e ∈ entries, e.Removes naming) ∧
      Remembers entries m ∧ ∀ e ∈ entries, e.Settles naming := by
  have reads : ReadsMetadata markedBody markedMetadata := ⟨_, rfl, rfl⟩
  have tells : TellsName markedBody := ⟨_, reads, markedMetadata_named⟩
  have ⟨m, w, handled⟩ := handle_marked .start ⟨(), []⟩
  have ⟨m', removed⟩ : ∃ m', (onEvent Settings.inSeconds deletionEvent markedBody).Run naming m w (.ok ()) m' w := by
    rw [onEvent_eq, reaction_deleted reads markedMetadata_named.nameOf_eq rfl (by decide)]
    exact ⟨_, .bind (.bind (.modify _) (.pure _)) (.pure ())⟩
  have handledJob : ((Job.handle markedBody).op Settings.inSeconds).Run naming .start ⟨(), []⟩ _ m w := handled
  have first : Journal Settings.inSeconds naming (fun _ _ => True) () _ m w := .done .blank handledJob
  have ⟨r, _, journal⟩ := first.reacted removed
  have named : ∀ e ∈ [(⟨.react deletionEvent markedBody, m, w, r, m', w⟩ : Entry Int Unit),
      ⟨.handle markedBody, .start, ⟨(), []⟩, .ok (.requeue 300), m, w⟩], e.job.TellsName := by
    simp [Job.TellsName, tells]
  have stored {k k' : Unit} {id : ResourceId} {body : Value}
      (replied : naming.replies k (.getObject id) (.ok body) k') : Stored id body := replied
  exact ⟨_, m', w, journal, rfl, named, ⟨_, .head _, .deleted rfl (by decide)⟩,
    remembers_of_journal ⟨rfl, rfl⟩ stored journal named⟩

-- A call that fails is not the last one to count: a resource that was scheduled stays due when it cannot be
-- fetched for lack of an answer.
theorem not_due_iff_last_requeued :
    ¬∀ (entries : List (Entry Int Unit)) (m : Memory Int) (w : World Int Unit),
      Journal Settings.inSeconds naming (fun _ _ => True) () entries m w →
      (∀ e ∈ entries, e.job.TellsName) → ∀ id, m.due.get? id ≠ none ↔
        ∃ e after, entries.find? (fun e => e.job.key == id) = some e ∧ e.result = .ok (.requeue after) := by
  intro claim
  let id := keyOf markedMetadata
  let first : World Int Unit := ⟨(), []⟩
  let second := first.next .now 0 () ()
  let third := second.next (.cluster (.getObject id)) (.error (.remote "timeout")) () ()
  let due : Memory Int := { Memory.start with due := [(id, 0 + 20)] }
  have looked : (Op.now : Op Int (Memory Int) Int).Run naming .start first (.ok 0) .start second :=
    .now (trivial : naming.changes () ())
  have refused : (Op.cluster (.getObject id)).Run naming due second (.error (.remote "timeout")) due third :=
    .cluster (trivial : naming.changes () ())
      (trivial : naming.replies () (.getObject id) (.error (.remote "timeout")) ())
  have scheduled : ((Job.schedule id (.requeue 20)).op Settings.inSeconds).Run naming .start first
      (.ok (.requeue 20)) due second :=
    .bind (.bind looked (.modify _)) (.pure (Action.requeue 20))
  have failed : ((Job.resync id).op Settings.inSeconds).Run naming due second (.error (.remote "timeout")) due
      third :=
    .bind (.attempt refused) (.of_script_eq rfl)
  have named : ∀ e ∈ [(⟨.resync id, due, second, .error (.remote "timeout"), due, third⟩ : Entry Int Unit),
      ⟨.schedule id (.requeue 20), .start, first, .ok (.requeue 20), due, second⟩], e.job.TellsName := by
    simp [Job.TellsName]
  have ⟨e, after, found, result⟩ := (claim _ _ _ (.done (.done .blank scheduled) failed) named id).mp (by decide)
  simp [Job.key] at found
  subst found
  cases result

end Operator
end SecretSync
