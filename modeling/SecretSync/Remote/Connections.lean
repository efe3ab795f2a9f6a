import SecretSync.Effect.Op
import SecretSync.Settings

/-!
Connections to remote services. Each is made when it is first needed and then kept.
-/

namespace SecretSync

structure Connections where
  awsSession : Bool
  awsClients : List AwsService
  googleCredentials : Option Text
  googleClient : Bool
  vault : Bool
  http : Bool

namespace Connections

variable {τ : Type}

def none : Connections where
  awsSession := false
  awsClients := []
  googleCredentials := .none
  googleClient := false
  vault := false
  http := false

-- Connects to an AWS service. A test environment has a local stand-in for it.
def aws (settings : Settings τ) (service : AwsService) : Op τ Connections Unit := do
  if !(← get).awsSession then
    Op.remote .awsSession
    modify ({ · with awsSession := true })
  if !(← get).awsClients.contains service then
    let endpoint := if settings.testMode then some settings.localstackUrl else .none
    Op.remote (.awsClient service (settings.awsRegion.filter (!·.isEmpty)) endpoint)
    modify fun s => { s with awsClients := service :: s.awsClients }

def googleAccess : Op τ Connections Text := do
  match (← get).googleCredentials with
  | some credentials => pure credentials
  | .none =>
    let credentials ← Op.remote .googleCredentials
    modify ({ · with googleCredentials := some credentials })
    pure credentials

def google : Op τ Connections Unit := do
  if !(← get).googleClient then
    let credentials ← googleAccess
    Op.remote (.googleClient credentials)
    modify ({ · with googleClient := true })

def connectVault (settings : Settings τ) : Op τ Connections Unit := do
  match settings.vaultAddress.filter (!·.isEmpty), settings.vaultToken.filter (!·.isEmpty) with
  | .none, _ => throw (.missingSetting "Vault" "VAULT_ADDR")
  | _, .none => throw (.missingSetting "Vault" "VAULT_TOKEN")
  | some address, some token =>
    if !(← get).vault then
      Op.remote (.vaultClient address token)
      modify ({ · with vault := true })

def web : Op τ Connections Unit := do
  if !(← get).http then
    Op.remote .httpSession
    modify ({ · with http := true })

end Connections

end SecretSync
