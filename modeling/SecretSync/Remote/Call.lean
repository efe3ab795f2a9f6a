import SecretSync.Fault

/-!
What the operator asks of remote services. Some calls only connect to a service; each of the others
is one request.
-/

namespace SecretSync

inductive AwsService where
  | ssm
  | secretsManager
  | cloudformation
  | appConfig
deriving DecidableEq, Repr

def AwsService.name : AwsService → Text
  | ssm => "ssm"
  | secretsManager => "secretsmanager"
  | cloudformation => "cloudformation"
  | appConfig => "appconfig"

structure SecretVersion where
  name : Text
  -- When it was created, in microseconds since a fixed time.
  created : Int
deriving DecidableEq, Repr

structure SecretPayload where
  data : Bytes
  -- The checksum that the service reports, zero for none.
  checksum : Int
deriving DecidableEq, Repr

structure HttpReply where
  status : Int
  body : Text
deriving DecidableEq, Repr

inductive RemoteCall where
  | awsSession
  | awsClient (service : AwsService) (region endpoint : Option Text)
  -- A decrypted parameter of the parameter store.
  | parameter (name : Value)
  | secretValue (id : Value)
  | stackList (name : Value)
  | configuration (application profile : Value) (version : Int)
  | googleCredentials
  | googleClient (credentials : Text)
  -- The enabled versions of a Google secret.
  | secretVersions (secret : Text)
  | secretPayload (version : Text)
  | vaultClient (address token : Text)
  -- The current version of a Vault secret, unless it has been deleted.
  | vaultSecret (path : Value) (mount : Text)
  | httpSession
  | httpGet (url : Text) (headers : Table Text Text)

@[reducible]
def RemoteCall.Answer : RemoteCall → Type
  | awsSession => Unit
  | awsClient _ _ _ => Unit
  | parameter _ => Value
  | secretValue _ => Value
  | stackList _ => Value
  | configuration _ _ _ => Value
  | googleCredentials => Text
  | googleClient _ => Unit
  | secretVersions _ => List SecretVersion
  | secretPayload _ => SecretPayload
  | vaultClient _ _ => Unit
  | vaultSecret _ _ => Value
  | httpSession => Unit
  | httpGet _ _ => HttpReply

end SecretSync
