import SecretSync.Effect.Op
import SecretSync.Text.Base64

/-!
The secret of a resource. It has the name of the resource, holds its content in base64, and records
the fingerprint of the content in a label that every write sets together with the data.
-/

namespace SecretSync

def Content.encode (content : Content) : Result EncodedData :=
  content.mapM fun (key, payload) =>
    match payload with
    | .bytes b => .ok (key, Base64.encode b)
    | _ => .error .wrongKind

namespace Target

inductive Outcome where
  | created
  | patched
  | unchanged
deriving DecidableEq, Repr

def secretType : Text := "Opaque"

-- Checks what a secret that is to be created says of itself: its namespace is a text or left out,
-- and its labels, of which one is its name, are texts.
def checkMetadata (namespaceName : Key) (labels : Labels) : Result Unit :=
  match namespaceName, labels.areTexts with
  | .null, true => .ok ()
  | .text _, true => .ok ()
  | _, _ => .error .wrongKind

def manifest (id : ResourceId) (content : Content) : Result Manifest := do
  let fingerprint ← content.fingerprint
  let labels := Labels.build id.name.toValue fingerprint
  checkMetadata id.namespaceName labels
  let data ← content.encode
  pure { labels, type := secretType, immutable := false, data }

-- The data to set or remove so that a secret with some data holds other data and nothing else.
def dataChange (existing wanted : EncodedData) : Table Key (Option Text) :=
  let extra := existing.filter fun (key, _) => !wanted.has key
  (wanted.map fun (key, t) => (key, some t)) ++ extra.map fun (key, _) => (key, none)

-- The change after which a secret holds a content and nothing else. There has to be a secret.
def patch (id : ResourceId) (content : Content) (existing : Option Secret) (fingerprint : Int) :
    Result SecretPatch := do
  let data ← content.encode
  match existing with
  | none => throw .lacksOperation
  | some s =>
    pure {
      labels := Labels.build id.name.toValue fingerprint
      data := dataChange (s.data.getD []) data }

variable {τ σ : Type}

-- Passes on success, and a fault as it is unless the call was refused with that status.
def unlessRefused {α : Type} (status : Int) (result : Result α) : Op τ σ (Option α) :=
  match result with
  | .ok a => pure (some a)
  | .error fault => if fault.status? = some status then pure none else throw fault

def read (id : ResourceId) : Op τ σ (Option Secret) := do
  unlessRefused 404 (← Op.attempt (Op.cluster (.readSecret id)))

def create (id : ResourceId) (content : Content) : Op τ σ Unit := do
  let manifest ← Op.ofResult (manifest id content)
  Op.cluster (.createSecret id manifest)

-- Makes an existing secret hold a content. The fingerprint is that of the content unless it is
-- given.
def amend (id : ResourceId) (content : Content) (existing : Option Secret)
    (given : Option Int) : Op τ σ Unit := do
  let fingerprint ← match given with
    | some n => pure n
    | none => do pure ((← Op.ofResult content.fingerprint : Nat) : Int)
  let patch ← Op.ofResult (patch id content existing fingerprint)
  Op.cluster (.patchSecret id patch)

def update (id : ResourceId) (content : Content) (existing : Secret) : Op τ σ Outcome := do
  let fingerprint ← Op.ofResult content.fingerprint
  if (← Op.ofResult existing.fingerprint?) = some (fingerprint : Int) then pure .unchanged
  else
    amend id content (some existing) (some fingerprint)
    pure .patched

-- Makes the secret of a resource hold a content. The secret is read unless it is given.
def ensure (id : ResourceId) (content : Content) (given : Option Secret) : Op τ σ Outcome := do
  let existing ← match given with
    | some s => pure (some s)
    | none => read id
  match existing with
  | some s => update id content s
  | none =>
    create id content
    pure .created

def remove (id : ResourceId) : Op τ σ Unit := do
  let _ ← unlessRefused 404 (← Op.attempt (Op.cluster (.deleteSecret id)))

end Target

end SecretSync
