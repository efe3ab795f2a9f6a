import SecretSync.Time.Timestamp
import SecretSync.Value.Access
import SecretSync.Value.Display

/-!
Declarations: resources that say from which backends the entries of a secret come. A declaration is
read from the body of a resource. Reading is lenient: what is missing, null or empty gets a default,
and most members are kept as they are, whatever their kind.
-/

namespace SecretSync

inductive Backend where
  | ssm
  -- A secret manager, of AWS or of Google Cloud.
  | secretManager
  | cloudformation
  | appConfig
  | pulumi
  | vault
  -- The declaration itself.
  | plaintext
  -- A kind that is not supported.
  | unknown
deriving DecidableEq, Repr

namespace Backend

def all : List Backend :=
  [ssm, secretManager, cloudformation, appConfig, pulumi, vault, plaintext, unknown]

def name : Backend → Text
  | ssm => "SSM"
  | secretManager => "SecretManager"
  | cloudformation => "Cloudformation"
  | appConfig => "AppConfig"
  | pulumi => "Pulumi"
  | vault => "Vault"
  | plaintext => "Plaintext"
  | unknown => "Unknown"

def ofValue (v : Value) : Backend :=
  match v with
  | .text t => (all.find? fun b => b.name = t).getD unknown
  | _ => unknown

theorem ofValue_name (b : Backend) : ofValue (.text b.name) = b := by
  cases b <;> decide +kernel

end Backend

structure Field where
  -- What to look up, or the plain value.
  value : Text
  key : Value
  -- Whether the fetched value is JSON text to take a part of.
  isJson : Bool
  remotePath : Value
  outputKey : Value
  profile : Value
  version : Value

structure Source where
  backend : Backend
  fields : List Field
  pulumiToken : Value

-- Why a resource counts as being deleted: since a time, or since its mark is not null.
inductive DeletionMark where
  | since (time : Timestamp)
  | marked (v : Value)

structure Declaration where
  name : Value
  namespaceName : Value
  sources : List Source
  description : Value
  finalizers : List Value
  deletion : Option DeletionMark
  resourceVersion : Value

structure ResourceId where
  namespaceName : Key
  name : Key

namespace ResourceId

instance : BEq ResourceId := ⟨fun a b => a.namespaceName == b.namespaceName && a.name == b.name⟩

theorem beq_iff {a b : ResourceId} :
    (a == b) = true ↔ (a.namespaceName == b.namespaceName) = true ∧ (a.name == b.name) = true :=
  Bool.and_eq_true_iff

instance : EquivBEq ResourceId where
  rfl := beq_iff.2 ⟨BEq.rfl, BEq.rfl⟩
  symm h := beq_iff.2 ⟨BEq.symm (beq_iff.1 h).1, BEq.symm (beq_iff.1 h).2⟩
  trans h k := beq_iff.2
    ⟨BEq.trans (beq_iff.1 h).1 (beq_iff.1 k).1, BEq.trans (beq_iff.1 h).2 (beq_iff.1 k).2⟩

end ResourceId

def Field.ofValue (v : Value) : Result Field := do
  let value ← v.memberOr "value" (.text [])
  let key ← v.member "key"
  let isJson ← v.member "is_json_string"
  let remotePath ← v.member "remote_path"
  let outputKey ← v.member "output_key"
  let profile ← v.member "configuration_profile_id"
  let version ← v.member "version_number"
  pure {
    value := value.display, key, isJson := isJson.isGiven, remotePath, outputKey, profile, version }

def Source.ofValue (v : Value) : Result Source := do
  let backend ← v.member "backend"
  let items ← (← v.member "data").orEmpty.elements
  let fields ← items.mapM Field.ofValue
  let pulumiToken ← v.member "pulumi_token"
  pure { backend := Backend.ofValue backend, fields, pulumiToken }

def Source.listOfValue (v : Value) : Result (List Source) := do
  (← v.orEmpty.elements).mapM Source.ofValue

-- Reads a deletion mark. A text has to be a timestamp.
def DeletionMark.ofValue? : Value → Result (Option DeletionMark)
  | .null => .ok none
  | .text t => do pure (some (.since (← Timestamp.ofText t)))
  | v => .ok (some (.marked v))

namespace Declaration

def defaultNamespace : Value := "default"

def nameOfBody (metadata : Value) : Result (Value × Value) := do
  let name ← metadata.memberOr "name" (.text [])
  let namespaceName ← metadata.member "namespace"
  pure (name, namespaceName.orElse defaultNamespace)

def ofBody (body : Value) : Result Declaration := do
  let metadata := (← body.member "metadata").orEmpty
  let spec := (← body.member "spec").orEmpty
  let deletion ← DeletionMark.ofValue? (← metadata.member "deletionTimestamp")
  let (name, namespaceName) ← nameOfBody metadata
  let sources ← Source.listOfValue (← spec.member "resources")
  let description ← spec.member "description"
  let finalizers ← (← metadata.member "finalizers").orEmpty.elements
  let resourceVersion ← metadata.member "resourceVersion"
  pure {
    name, namespaceName, sources, description, finalizers, deletion, resourceVersion }

def nameOnly (name namespaceName : Value) : Declaration where
  name
  namespaceName
  sources := []
  description := .null
  finalizers := []
  deletion := none
  resourceVersion := .null

def id (d : Declaration) : Result ResourceId := do
  pure { namespaceName := ← d.namespaceName.asKey, name := ← d.name.asKey }

def isDeleting (d : Declaration) : Bool := d.deletion.isSome

end Declaration

-- The finalizer by which the operator holds a resource until its secret is gone.
def defaultFinalizer : Text := "rsecrets.jerry153fish.com/finalizer"

def hasFinalizer (finalizer : Text) (finalizers : List Value) : Bool :=
  finalizers.any (Value.same (.text finalizer))

end SecretSync
