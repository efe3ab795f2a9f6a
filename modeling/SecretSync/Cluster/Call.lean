import SecretSync.Content.Fingerprint
import SecretSync.Declaration

/-!
What the operator asks of the cluster: reading and writing secrets, and reading resources and
changing their finalizers.
-/

namespace SecretSync

abbrev EncodedData := Table Key Text

structure Secret where
  labels : Option Labels
  data : Option EncodedData

namespace Secret

def labelsValue (s : Secret) : Value :=
  match s.labels with
  | some labels => .object labels
  | none => .null

def fingerprint? (s : Secret) : Result (Option Int) := Labels.fingerprint? s.labelsValue

end Secret

structure Manifest where
  labels : Labels
  type : Text
  immutable : Bool
  data : EncodedData

-- A change to a secret: labels to set, and data to set or, where there is none, to remove.
structure SecretPatch where
  labels : Labels
  data : Table Key (Option Text)

-- A change to a resource: its new finalizers, none of them standing for the field's removal, and
-- the version that it has to have.
structure ObjectPatch where
  finalizers : Option (List Value)
  resourceVersion : Option Value

inductive ClusterCall where
  | readSecret (id : ResourceId)
  | createSecret (id : ResourceId) (manifest : Manifest)
  | patchSecret (id : ResourceId) (patch : SecretPatch)
  | deleteSecret (id : ResourceId)
  | getObject (id : ResourceId)
  | patchObject (id : ResourceId) (patch : ObjectPatch)

-- What a successful call to the cluster gives. The answer to a change of a resource is its new
-- body, or null from a cluster that tells nothing.
@[reducible]
def ClusterCall.Answer : ClusterCall → Type
  | readSecret _ => Secret
  | createSecret _ _ => Unit
  | patchSecret _ _ => Unit
  | deleteSecret _ => Unit
  | getObject _ => Value
  | patchObject _ _ => Value

end SecretSync
