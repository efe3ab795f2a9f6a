import SecretSync.Remote.Connections
import SecretSync.Value.Access

/-!
Secrets in a key-value store of Vault. A reply holds the data of a secret inside data about it.
-/

namespace SecretSync.Vault

variable {τ : Type} (settings : Settings τ)

def readReply (reply : Value) : Result Value := do
  (← reply.requiredMember "data").requiredMember "data"

def secret (path : Value) : Op τ Connections Value := do
  Connections.connectVault settings
  Op.ofResult (readReply (← Op.remote (.vaultSecret path settings.vaultMount)))

end SecretSync.Vault
