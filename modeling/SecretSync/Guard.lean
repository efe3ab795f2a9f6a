import SecretSync.Declaration
import SecretSync.Effect.Op

/-!
The guard of a resource: a finalizer that keeps the resource in the cluster until its secret is gone.
Other finalizers belong to others and are kept. A change names the version of the snapshot that it was
made from, so that a list made from an old snapshot is refused instead of dropping what was added
since; after such a refusal the resource is read again and the change made once more.
-/

namespace SecretSync

structure Snapshot where
  finalizers : List Value
  resourceVersion : Value

def Declaration.snapshot (d : Declaration) : Snapshot := ⟨d.finalizers, d.resourceVersion⟩

namespace Guard

def added (finalizer : Text) (finalizers : List Value) : List Value :=
  if hasFinalizer finalizer finalizers then finalizers else finalizers ++ [.text finalizer]

def removed (finalizer : Text) (finalizers : List Value) : List Value :=
  finalizers.filter fun f => !Value.same (.text finalizer) f

structure Change where
  apply : List Value → List Value
  -- Whether an empty list removes the field.
  clears : Bool

def addition (finalizer : Text) : Change := ⟨added finalizer, false⟩

def removal (finalizer : Text) : Change := ⟨removed finalizer, true⟩

def Change.patch (change : Change) (s : Snapshot) : ObjectPatch where
  finalizers :=
    let finalizers := change.apply s.finalizers
    if change.clears && finalizers.isEmpty then none else some finalizers
  resourceVersion := if s.resourceVersion.isGiven then some s.resourceVersion else none

def metadataOf (body : Value) : Result Value := do pure (← body.member "metadata").orEmpty

variable {τ : Type} (id : ResourceId)

-- Takes the version from the body that a patch was answered with.
def noteReply (reply : Value) : Op τ Snapshot Unit := do
  match reply with
  | .object _ =>
    let metadata ← Op.ofResult (metadataOf reply)
    let resourceVersion ← Op.ofResult (metadata.member "resourceVersion")
    modify ({ · with resourceVersion })
  | _ => pure ()

def write (change : Change) : Op τ Snapshot Unit := do
  let s ← get
  let reply ← Op.cluster (.patchObject id (change.patch s))
  modify ({ · with finalizers := change.apply s.finalizers })
  noteReply reply

def refresh : Op τ Snapshot Unit := do
  let metadata ← Op.ofResult (metadataOf (← Op.cluster (.getObject id)))
  let finalizers ← Op.ofResult (do (← metadata.member "finalizers").orEmpty.elements)
  modify ({ · with finalizers })
  let resourceVersion ← Op.ofResult (metadata.member "resourceVersion")
  modify ({ · with resourceVersion })

-- Makes a change, and once more from a new snapshot if the first one was too old.
def change (c : Change) : Op τ Snapshot Unit := do
  match ← Op.attempt (write id c) with
  | .ok () => pure ()
  | .error fault =>
    if fault.status? = some 409 then
      refresh id
      write id c
    else throw fault

def add (finalizer : Text) : Op τ Snapshot Bool := do
  if hasFinalizer finalizer (← get).finalizers then pure false
  else
    change id (addition finalizer)
    pure true

-- Removes the guard and tells whether it was there. A resource that is gone has none.
def release (finalizer : Text) : Op τ Snapshot Bool := do
  if hasFinalizer finalizer (← get).finalizers then
    match ← Op.attempt (change id (removal finalizer)) with
    | .ok () => pure true
    | .error fault =>
      if fault.status? = some 404 then
        modify fun s => { s with finalizers := removed finalizer s.finalizers }
        pure true
      else throw fault
  else pure false

end Guard

end SecretSync
