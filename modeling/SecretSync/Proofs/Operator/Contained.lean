import SecretSync.Proofs.Content.Precedence
import SecretSync.Proofs.Operator.Concluding

/-!
A handling contains every error. Whatever else a body with a name holds, and whatever the cluster and the
remote services reply, there is an action, a failure is counted once, and what is noted of the resource
fits the action. Main statement: `Operator.handle_contained`.
-/

namespace SecretSync

open Table (Distinct)
open Cluster (IsNamed ReadsMetadata deletionTimestamp keyOf)

variable {τ κ : Type}

namespace Reconcile

-- What a reconciliation comes to, if it does not fail.
def outcome (soon : τ) (d : Declaration) : Action τ :=
  if d.isDeleting then .awaitChange else .requeue soon

variable [Timeline τ] {settings : Settings τ} {soon : τ} {api : Api κ} {d : Declaration} {m : Memory τ}
  {w : World τ κ} (requeues : settings.requeueAfter = .lasting soon)
include requeues

theorem writeSecret_requeues (id : ResourceId) (existing : Option Secret) :
    (writeSecret settings d id existing).Ensures api m w (fun action _ _ => action = .requeue soon)
      fun _ _ _ => True := by
  rw [writeSecret_eq]
  exact (Op.Ensures.trivial _ m w).bind fun _ _ _ _ => store_requeues requeues

theorem create_requeues (id : ResourceId) :
    (create settings d id).Ensures api m w (fun action _ _ => action = .requeue soon)
      fun _ _ _ => True :=
  (Op.Ensures.trivial _ m w).bind fun _ _ _ _ => writeSecret_requeues requeues id none

theorem update_requeues (id : ResourceId) :
    (update settings d id).Ensures api m w (fun action _ _ => action = .requeue soon)
      fun _ _ _ => True := by
  apply (Op.Ensures.trivial _ m w).bind
  intro existing _ _ _
  cases existing
  case none => exact create_requeues requeues id
  case some => exact writeSecret_requeues requeues id _

omit [Timeline τ] requeues in
theorem delete_awaits (id : ResourceId) :
    (delete d id : Op τ (Memory τ) (Action τ)).Ensures api m w (fun action _ _ => action = .awaitChange)
      fun _ _ _ => True := by
  apply (Op.Ensures.trivial _ m w).bind
  intro _ m₁ w₁ _
  apply (Op.Ensures.trivial _ m₁ w₁).bind
  exact fun _ _ _ _ => (Op.ensures_pure _).mpr rfl

theorem locked_outcome :
    (locked settings d).Ensures api m w (fun action _ _ => action = outcome soon d)
      fun _ _ _ => True := by
  apply Op.Ensures.bind_ofResult
  case hfail => exact fun _ _ => trivial
  intro id _
  apply (Op.Ensures.trivial _ m w).bind
  intro _ m₁ w₁ _
  simp only [Phase.of, outcome]
  cases d.isDeleting
  case true => exact delete_awaits id
  case false =>
    cases hasFinalizer defaultFinalizer d.finalizers
    case true => exact update_requeues requeues id
    case false => exact create_requeues requeues id

theorem reconcile_outcome :
    (reconcile settings d).Ensures api m w (fun action _ _ => action = outcome soon d)
      fun _ _ _ => True := by
  simp only [reconcile, count, Op.ensures_bind, Op.ensures_modify, Op.ensures_attempt,
    Op.ensures_ofResult]
  exact locked_outcome requeues

end Reconcile

namespace Operator

open Reconcile (outcome)

variable [Timeline τ] {settings : Settings τ} {body : Value} {members : Table Text Value} {soon late : τ}
  {api : Api κ} {m m' : Memory τ} {w w' : World τ κ} {id : ResourceId}

theorem readAndReconcile_outcome (requeues : settings.requeueAfter = .lasting soon) :
    (readAndReconcile settings body).Ensures api m w
      (fun action _ _ => ∃ d, Declaration.ofBody body = .ok d ∧ action = outcome soon d)
      fun _ _ _ => True := by
  apply Op.Ensures.bind_ofResult
  case hfail => exact fun _ _ => trivial
  intro d readable
  apply (Reconcile.reconcile_outcome requeues).mono
  case hok => exact fun _ _ _ eq => ⟨d, readable, eq⟩
  case hfail => exact fun _ _ _ => id

-- What is noted of a resource fits the action: when it is due, by the clock, or nothing.
inductive Noted (id : ResourceId) (m : Memory τ) (w w' : World τ κ) : Action τ → Prop
  | due {time after : τ} {state : κ} (read : w' = w.next .now time state state)
      (due : m.due.get? id = some (time + after)) : Noted id m w w' (.requeue after)
  | nothing (same : w' = w) (due : m.due.get? id = none)
      (lock : ∀ other ∈ m.locks, (other == id) = false) : Noted id m w w' .awaitChange

-- Scheduling a resource leaves alone when others are due.
structure Schedules (id : ResourceId) (m : Memory τ) (w : World τ κ) (action : Action τ) (m' : Memory τ)
    (w' : World τ κ) : Prop where
  noted    : Noted id m' w w' action
  others   : ∀ other, (id == other) = false → m'.due.get? other = m.due.get? other
  distinct : Distinct m'.due

theorem schedule_schedules (action : Action τ) (distinct : Distinct m.due) :
    (schedule id action).Ensures api m w (fun _ m' w' => Schedules id m w action m' w')
      fun _ _ _ => False := by
  cases action
  case awaitChange =>
    apply (Op.ensures_modify _).mpr
    constructor
    case noted =>
      apply Noted.nothing rfl
      case due => simp [Table.get?_remove _ _ distinct]
      case lock => simp
    case others => exact fun other apart => by simp [Table.get?_remove _ _ distinct, apart]
    case distinct => exact distinct.remove id
  case requeue after =>
    apply Op.ensures_bind.mpr
    apply Op.ensures_now.mpr
    intro time state _
    apply (Op.ensures_modify _).mpr
    constructor
    case noted => exact .due rfl (Table.get?_put_self ..)
    case others => exact fun other apart => by simp [Table.get?_put, apart]
    case distinct => exact distinct.put id _

-- What comes of a handling: its action, what it counts and what it notes.
structure Contained (api : Api κ) (settings : Settings τ) (body : Value) (members : Table Text Value)
    (soon late : τ) (m : Memory τ) (w : World τ κ) (action : Action τ) (m' : Memory τ) (w' : World τ κ) :
    Prop where
  waits  : action = .awaitChange → deletionTimestamp members ≠ .null
  course : ∃ done m₁ w₁, (readAndReconcile settings body).Run api m w done m₁ w₁ ∧
    (∀ fault, done = .error fault → action = .requeue late ∧ m'.failures = m.failures + 1) ∧
    (∀ a, done = .ok a → m'.failures = m.failures ∧
      (deletionTimestamp members = .null → action = .requeue soon)) ∧
    Noted (keyOf members) m' w₁ w' action
  others : ∀ other, (keyOf members == other) = false → m'.due.get? other = m.due.get? other
  distinct : Distinct m'.due

theorem handle_contained_run (lasts : settings.Lasts soon late) (reads : ReadsMetadata body members)
    (named : IsNamed members) (distinct : Distinct m.due) :
    (handle settings body).Ensures api m w
      (fun action m' w' => Contained api settings body members soon late m w action m' w')
      fun _ _ _ => False := by
  apply (handle_schedules lasts reads named.nameOf_eq).mono
  case hfail => exact fun _ _ _ never => never
  intro action m' w' ⟨done, m₁, w₁, m₂, run, concluding, concludes, scheduling⟩
  have due : m₂.due = m.due :=
    ((conclude_leaves (f := Memory.due) (fun _ _ => rfl) done).of_run concluding).trans
      ((readAndReconcile_leavesAside Memory.aside_due).of_run run)
  have failures : m₁.failures = m.failures := readAndReconcile_leaves.of_run run
  have kept : m'.failures = m₂.failures :=
    (schedule_leaves (keyOf members) action).of_run scheduling
  have schedules := schedule_schedules action (due ▸ distinct) _ _ _ scheduling
  have told : ∀ a, done = .ok a → ∃ d, (d.isDeleting = true ↔ deletionTimestamp members ≠ .null) ∧
      action = outcome soon d := by
    intro a eq
    have same := (concludes.ok a eq).left
    subst eq same
    have ⟨d, readable, eq⟩ : ∃ d, Declaration.ofBody body = .ok d ∧ action = outcome soon d :=
      readAndReconcile_outcome lasts.success _ _ _ run
    exact ⟨d, (reads.declaration readable).right, eq⟩
  constructor
  case waits =>
    intro waits
    cases done
    case error fault => exact absurd (waits ▸ (concludes.error fault rfl).left) nofun
    case ok a =>
      have ⟨d, deleting, eq⟩ := told a rfl
      apply deleting.mp
      simpa [outcome, waits] using eq
  case course =>
    refine ⟨done, m₁, w₁, run, ?_, ?_, schedules.noted⟩
    · intro fault eq
      have ⟨same, counted⟩ := concludes.error fault eq
      have counted : m₂.failures = m₁.failures + 1 := by simp only [Memory.failures, counted]
      exact ⟨same, by rw [kept, counted, failures]⟩
    · intro a eq
      have counted : m₂.failures = m₁.failures :=
        congrArg Counters.failures (concludes.ok a eq).right
      obtain ⟨d, deleting, same⟩ := told a eq
      refine ⟨by rw [kept, counted, failures], fun absent => ?_⟩
      have live : d.isDeleting = false := Bool.eq_false_iff.mpr fun h => deleting.mp h absent
      rw [same, outcome, live]
      rfl
  case others => exact fun other apart => due ▸ schedules.others other apart
  case distinct => exact schedules.distinct

theorem handle_contained (lasts : settings.Lasts soon late) (reads : ReadsMetadata body members)
    (named : IsNamed members) (distinct : Distinct m.due) :
    (∀ (ς : Type) (responder : Responder τ ς) (x : ς), ∃ action,
      (handle settings body).result responder m x = .ok action) ∧
    ∀ (κ : Type) (api : Api κ) (w w' : World τ κ) (r : Result (Action τ)) (m' : Memory τ),
      (handle settings body).Run api m w r m' w' →
        ∃ action, r = .ok action ∧ Contained api settings body members soon late m w action m' w' := by
  have contained {κ : Type} {api : Api κ} {w w' : World τ κ} {r : Result (Action τ)} {m' : Memory τ}
      (run : (handle settings body).Run api m w r m' w') :
      ∃ action, r = .ok action ∧ Contained api settings body members soon late m w action m' w' := by
    have ended := handle_contained_run lasts reads named distinct _ _ _ run
    cases r
    case error => cases ended
    case ok action => exact ⟨action, rfl, ended⟩
  constructor
  case left =>
    intro ς responder x
    have answered : (handle settings body).answered responder m x =
        (((handle settings body).result responder m x, _), _) := rfl
    have ⟨_, run⟩ := Op.exists_run responder (⟨(), []⟩ : World τ Unit) answered
    have ⟨action, eq, _⟩ := contained run
    exact ⟨action, eq⟩
  case right => exact fun _ _ _ _ _ _ => contained

def markedMetadata : Table Text Value :=
  [("name", "app"), ("deletionTimestamp", "soon")]

def markedBody : Value := .object [("metadata", .object markedMetadata)]

theorem markedMetadata_named : IsNamed markedMetadata :=
  Cluster.isNamed_of_all rfl

-- A mark that is no timestamp fails the reading, so the resource is due again, and no deletion goes on.
theorem handle_contained_marked : ∃ (m' : Memory Int) (w' : World Int Unit),
    (handle Settings.inSeconds markedBody).Run .any .start ⟨(), []⟩ (.ok (.requeue 300)) m' w' ∧
      m'.failures = 1 ∧
      Contained .any Settings.inSeconds markedBody markedMetadata 20 300 .start ⟨(), []⟩ (.requeue 300)
        m' w' := by
  have ⟨m', counted, answered⟩ : ∃ m' : Memory Int, m'.failures = 1 ∧
      (handle Settings.inSeconds markedBody).answered (Content.still Content.oneParameter) .start () =
        ((.ok (.requeue 300), m'), ()) :=
    ⟨_, rfl, rfl⟩
  have ⟨w', run⟩ := Op.exists_run (Content.still Content.oneParameter) (⟨(), []⟩ : World Int Unit) answered
  have ⟨_, eq, contained⟩ := (handle_contained (m := .start) ⟨rfl, rfl⟩ ⟨_, rfl, rfl⟩ markedMetadata_named trivial).right
    _ _ _ _ _ _ run
  cases eq
  exact ⟨m', w', run, counted, contained⟩

end Operator

end SecretSync
