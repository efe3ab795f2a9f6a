import SecretSync.Json.Parser
import SecretSync.Remote.Connections
import SecretSync.Value.Access
import SecretSync.Value.Display

/-!
Outputs of Pulumi stacks, taken from the export of a stack.
-/

namespace SecretSync.Pulumi

variable {τ : Type} (settings : Settings τ)

-- The token that requests carry: the declared one, or else the one that is set.
def effectiveToken (declared : Value) : Result Text :=
  if declared.isGiven then .ok declared.display
  else match settings.pulumiToken.filter (!·.isEmpty) with
    | some token => .ok token
    | none => .error (.missingSetting "Pulumi" "PULUMI_ACCESS_TOKEN")

def exportUrl (path : Text) : Text :=
  let slash : CodePoint := '/'
  Text.dropRightWhile (· = slash) settings.pulumiEndpoint ++ slash :: path
    ++ Text.ofString "/export"

def headers (token : Text) : Table Text Text := [
  ("Accept", "application/vnd.pulumi+8"),
  ("Content-Type", "application/json"),
  ("Authorization", Text.ofString "token " ++ token)]

def readReply (reply : HttpReply) : Result Value :=
  if 400 ≤ reply.status then .error (.remote (Text.ofString "http " ++ Text.ofInt reply.status))
  else Json.parse reply.body

-- The outputs of the first resource in an export.
def readOutputs (document : Value) : Result Value := do
  let deployment := (← document.member "deployment").orEmpty
  let resources ← deployment.member "resources"
  if resources.isGiven then
    let first ← resources.select (.int 0)
    pure (← first.member "outputs").orEmpty
  else pure (.object [])

def outputs (path : Text) (declaredToken : Value) : Op τ Connections Value := do
  let token ← Op.ofResult (effectiveToken settings declaredToken)
  Connections.web
  let reply ← Op.remote (.httpGet (exportUrl settings path) (headers token))
  Op.ofResult (do readOutputs (← readReply reply))

end SecretSync.Pulumi
