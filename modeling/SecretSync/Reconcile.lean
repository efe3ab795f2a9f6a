import SecretSync.Content.Assembly
import SecretSync.Guard
import SecretSync.Target

/-!
Reconciling a resource: bringing its secret in line with its declaration. What to do follows from two
facts about the resource alone, whether it is being deleted and whether it has the guard:

* being deleted: the secret is removed, then the guard;
* without the guard: the guard is added, then the secret is written;
* with the guard: the secret is written if its content has changed.
-/

namespace SecretSync

inductive Phase where
  | create
  | update
  | delete
deriving DecidableEq, Repr

def Phase.of (deleting guarded : Bool) : Phase :=
  if deleting then .delete
  else if guarded then .update
  else .create

inductive Action (τ : Type) where
  | requeue (after : τ)
  | awaitChange

structure Counters where
  reconciliations : Nat
  failures : Nat
  creates : Nat
  updates : Nat
  -- The reconciliations whose duration was measured.
  timed : Nat
deriving DecidableEq, Repr

structure Memory (τ : Type) where
  session : Session τ
  due : Table ResourceId τ
  locks : List ResourceId
  counters : Counters

namespace Memory

def start {τ : Type} : Memory τ where
  session := { cache := [], rest := Connections.none }
  due := []
  locks := []
  counters := ⟨0, 0, 0, 0, 0⟩

end Memory

namespace Reconcile

variable {τ : Type}

def count (f : Counters → Counters) : Op τ (Memory τ) Unit :=
  modify fun m => { m with counters := f m.counters }

def countOutcome : Target.Outcome → Op τ (Memory τ) Unit
  | .created => count fun c => { c with creates := c.creates + 1 }
  | .patched => count fun c => { c with updates := c.updates + 1 }
  | .unchanged => pure ()

def lock (id : ResourceId) : Op τ (Memory τ) Unit :=
  modify fun m => if m.locks.contains id then m else { m with locks := m.locks ++ [id] }

variable [Timeline τ] (settings : Settings τ)

def assemble (d : Declaration) : Op τ (Memory τ) Content :=
  Op.within Memory.session (fun session m => { m with session })
    (Content.assemble settings settings.cacheTtl d.sources)

def changeGuard (d : Declaration) (op : Op τ Snapshot Bool) : Op τ (Memory τ) Bool := do
  let (result, _) ← Op.on d.snapshot op
  Op.ofResult result

def writeSecret (d : Declaration) (id : ResourceId) (existing : Option Secret) :
    Op τ (Memory τ) (Action τ) := do
  let content ← assemble settings d
  countOutcome (← Target.ensure id content existing)
  pure (.requeue (← Op.ofResult settings.requeueAfter.duration))

def create (d : Declaration) (id : ResourceId) : Op τ (Memory τ) (Action τ) := do
  let _ ← changeGuard d (Guard.add id defaultFinalizer)
  writeSecret settings d id none

-- Writes the secret; one that has disappeared is created.
def update (d : Declaration) (id : ResourceId) : Op τ (Memory τ) (Action τ) := do
  match ← Target.read id with
  | some existing => writeSecret settings d id (some existing)
  | none => create settings d id

def delete (d : Declaration) (id : ResourceId) : Op τ (Memory τ) (Action τ) := do
  Target.remove id
  let _ ← changeGuard d (Guard.release id defaultFinalizer)
  pure .awaitChange

def locked (d : Declaration) : Op τ (Memory τ) (Action τ) := do
  let id ← Op.ofResult d.id
  lock id
  match Phase.of d.isDeleting (hasFinalizer defaultFinalizer d.finalizers) with
  | .create => create settings d id
  | .update => update settings d id
  | .delete => delete d id

def reconcile (d : Declaration) : Op τ (Memory τ) (Action τ) := do
  count fun c => { c with reconciliations := c.reconciliations + 1 }
  let result ← Op.attempt (locked settings d)
  count fun c => { c with timed := c.timed + 1 }
  Op.ofResult result

def failed : Op τ (Memory τ) (Action τ) := do
  count fun c => { c with failures := c.failures + 1 }
  pure (.requeue (← Op.ofResult settings.errorRequeueAfter.duration))

def run (d : Declaration) : Op τ (Memory τ) (Action τ) := do
  match ← Op.attempt (reconcile settings d) with
  | .ok action => pure action
  | .error _ => failed settings

end Reconcile

end SecretSync
