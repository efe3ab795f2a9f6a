import SecretSync.Remote.Connections
import SecretSync.Value.Access

/-!
Values held by AWS: parameters, secrets, the outputs of stacks and hosted configurations. Each
function makes one request, and passes the name that it is given on as it is.
-/

namespace SecretSync.Aws

variable {τ : Type} (settings : Settings τ)

def readParameter (name reply : Value) : Result Value := do
  let parameter ← reply.member "Parameter"
  if parameter.isGiven then parameter.memberOr "Value" (.text [])
  else throw (.emptyContent "SSM" name)

def parameter (name : Value) : Op τ Connections Value := do
  Connections.aws settings .ssm
  Op.ofResult (readParameter name (← Op.remote (.parameter name)))

-- The value in a reply about a secret, which is a text or the bytes of one.
def readSecret (id reply : Value) : Result Value := do
  match ← reply.member "SecretString" with
  | .null =>
    match ← reply.member "SecretBinary" with
    | .null => throw (.emptyContent "SecretManager" id)
    | binary => pure (.text (← binary.decode))
  | found => pure found

def secret (id : Value) : Op τ Connections Value := do
  Connections.aws settings .secretsManager
  Op.ofResult (readSecret id (← Op.remote (.secretValue id)))

def readOutput (output : Value) : Result (Key × Value) := do
  let name ← output.requiredMember "OutputKey"
  let value ← output.memberOr "OutputValue" (.text [])
  pure (← name.asKey, value)

-- The outputs in a reply about stacks, those of the first one.
def readOutputs (name reply : Value) : Result (Table Key Value) := do
  let found ← reply.member "Stacks"
  if found.isGiven then
    let stack ← found.select (.int 0)
    let outputs := (← stack.member "Outputs").orElse (.list [])
    pure (Table.ofEntries (← (← outputs.elements).mapM readOutput))
  else throw (.emptyContent "Cloudformation" name)

def stackOutputs (name : Value) : Op τ Connections (Table Key Value) := do
  Connections.aws settings .cloudformation
  Op.ofResult (readOutputs name (← Op.remote (.stackList name)))

def versionNumber (version : Value) : Result Int :=
  match version.toInt with
  | .ok n => .ok n
  | .error .wrongKind => .error (.missingSetting "AppConfig" "version_number")
  | .error fault =>
    if fault.isUnreadableValue then .error (.missingSetting "AppConfig" "version_number")
    else .error fault

def readConfiguration (application reply : Value) : Result Value := do
  match ← reply.member "Content" with
  | .null => throw (.emptyContent "AppConfig" application)
  | .stream bytes => pure (.text (← (Value.bytes bytes).decode))
  | content => pure (.text (← content.decode))

-- A version of a hosted configuration. Its profile and version have to be declared.
def configuration (application profile version : Value) : Op τ Connections Value := do
  if profile.isGiven then
    let version ← Op.ofResult (versionNumber version)
    Connections.aws settings .appConfig
    let reply ← Op.remote (.configuration application profile version)
    Op.ofResult (readConfiguration application reply)
  else throw (.missingSetting "AppConfig" "configuration_profile_id")

end SecretSync.Aws
