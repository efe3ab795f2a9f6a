import SecretSync.Cache
import SecretSync.Declaration
import SecretSync.Remote.Aws
import SecretSync.Remote.Google
import SecretSync.Remote.Pulumi
import SecretSync.Remote.Vault

/-!
Lookups: what fields ask remote services for. A lookup fixes both the request that is made and the
key under which the fetched value is kept, so two fields share a value only if they ask for the same.
-/

namespace SecretSync

inductive Lookup where
  | parameter (name : Text)
  | secret (name : Text)
  | stack (name : Text)
  | configuration (application : Text) (profile version : Value)
  | pulumiStack (path : Text) (token : Value)
  | vaultSecret (path : Text)

-- What a lookup gives. The outputs of a CloudFormation stack may have names of any kind.
inductive Fetched where
  | value (v : Value)
  | outputs (t : Table Key Value)

abbrev Session (τ : Type) := Cached τ Fetched Connections

namespace Lookup

variable {τ : Type}

def backend : Lookup → Backend
  | parameter _ => .ssm
  | secret _ => .secretManager
  | stack _ => .cloudformation
  | configuration _ _ _ => .appConfig
  | pulumiStack _ _ => .pulumi
  | vaultSecret _ => .vault

def details : Lookup → List Value
  | parameter name => [.text name]
  | secret name => [.text name]
  | stack name => [.text name]
  | configuration application profile version => [.text application, profile, version]
  | pulumiStack path token => [.text path, token]
  | vaultSecret path => [.text path]

def cacheKey? (l : Lookup) : Option CacheKey := do
  let details ← l.details.mapM Value.key?
  pure (.several (.text l.backend.name :: details))

def fetch (settings : Settings τ) : Lookup → Op τ Connections Fetched
  | parameter name => do pure (.value (← Aws.parameter settings (.text name)))
  | secret name => do
    if (GoogleName.ofText? name).isSome then pure (.value (← Google.secret name))
    else pure (.value (← Aws.secret settings (.text name)))
  | stack name => do pure (.outputs (← Aws.stackOutputs settings (.text name)))
  | configuration application profile version => do
    pure (.value (← Aws.configuration settings (.text application) profile version))
  | pulumiStack path token => do pure (.value (← Pulumi.outputs settings path token))
  | vaultSecret path => do pure (.value (← Vault.secret settings (.text path)))

def resolve [Timeline τ] (settings : Settings τ) (ttl : Span τ) (l : Lookup) :
    Op τ (Session τ) Fetched :=
  Cached.getOrFetch l.cacheKey? ttl (l.fetch settings)

def ofField (source : Source) (field : Field) : Option Lookup :=
  match source.backend with
  | .ssm => some (.parameter field.value)
  | .secretManager => some (.secret field.value)
  | .cloudformation => some (.stack field.value)
  | .appConfig => some (.configuration field.value field.profile field.version)
  | .pulumi => some (.pulumiStack field.value source.pulumiToken)
  | .vault => some (.vaultSecret field.value)
  | .plaintext => none
  | .unknown => none

end Lookup

end SecretSync
