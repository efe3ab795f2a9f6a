import SecretSync.Reconcile

/-!
The operator: it reconciles resources when they change and when they are due, and keeps track of when
that is. A failed reconciliation makes a resource due like a successful one, only later. Nothing is
kept of a resource that waits for its next change.
-/

namespace SecretSync.Operator

variable {τ : Type} [Timeline τ] (settings : Settings τ)

-- What the operator reports about itself: when it last began a reconciliation.
def reported : List Text := ["last_event"]

def forget (id : ResourceId) : Op τ (Memory τ) Unit :=
  modify fun m => { m with due := m.due.remove id, locks := m.locks.filter fun other => !(other == id) }

def schedule (id : ResourceId) : Action τ → Op τ (Memory τ) Unit
  | .awaitChange => forget id
  | .requeue after => do
    let time ← Op.now
    modify fun m => { m with due := m.due.put id (time + after) }

-- How long it is until a resource is due; no time for one that is not scheduled.
def untilDue (id : ResourceId) : Op τ (Memory τ) τ := do
  match (← get).due.get? id with
  | some due => do pure (Timeline.atLeastZero (due - (← Op.now)))
  | none => pure Timeline.zero

def reconcileBody (body : Value) : Op τ (Memory τ) (Declaration × Action τ) := do
  match Declaration.ofBody body with
  | .ok d => do pure (d, ← Reconcile.run settings d)
  | .error _ =>
    let metadata := (← Op.ofResult (body.member "metadata")).orEmpty
    let (name, namespaceName) ← Op.ofResult (Declaration.nameOfBody metadata)
    pure (Declaration.nameOnly name namespaceName, ← Reconcile.failed settings)

def handle (body : Value) : Op τ (Memory τ) (Action τ) := do
  let (d, action) ← reconcileBody settings body
  schedule (← Op.ofResult d.id) action
  pure action

def resync (id : ResourceId) : Op τ (Memory τ) (Action τ) := do
  match ← Op.attempt (Op.cluster (.getObject id)) with
  | .ok body => handle settings body
  | .error fault =>
    match fault.status? with
    | none => throw fault
    | some status =>
      if status = 404 then
        forget id
        pure .awaitChange
      else
        let action ← Reconcile.failed settings
        schedule id action
        pure action

def deleted : Value := "DELETED"

def onEvent (event body : Value) : Op τ (Memory τ) Unit := do
  if (← Op.ofResult (event.member "type")).same deleted then
    let metadata := (← Op.ofResult (body.member "metadata")).orEmpty
    let (name, namespaceName) ← Op.ofResult (Declaration.nameOfBody metadata)
    forget (← Op.ofResult (Declaration.nameOnly name namespaceName).id)
  else
    let _ ← handle settings body

-- The longest time that a waiting loop lets pass before it looks at the schedule again.
def pollInterval : τ := Timeline.seconds 5

-- Reconciles a resource whenever it is due, until it waits for its next change. `looks` is how
-- often the loop goes on before it is stopped.
def watchWith (resync : Op τ (Memory τ) (Action τ)) (id : ResourceId) :
    Nat → Op τ (Memory τ) Unit
  | 0 => pure ()
  | looks + 1 => do
    let delay ← untilDue id
    if Timeline.zero < delay then
      Op.wait (Timeline.atMost pollInterval delay)
      watchWith resync id looks
    else
      match ← resync with
      | .awaitChange => pure ()
      | .requeue _ => watchWith resync id looks

def watch (id : ResourceId) (looks : Nat) : Op τ (Memory τ) Unit :=
  watchWith (resync settings id) id looks

end SecretSync.Operator
