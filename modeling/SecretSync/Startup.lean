import SecretSync.Effect.Script
import SecretSync.Settings

/-!
Starting the operator: the settings are read, access to the cluster is set up, and the counters are
served if the settings ask for it.
-/

namespace SecretSync

inductive StartCall where
  | inClusterAccess
  | fileAccess
  | serveCounters (socket : Int)

-- The reply to a call of the start: whether it runs in the cluster, or nothing.
@[reducible]
def StartCall.Reply : StartCall → Type
  | inClusterAccess => Bool
  | fileAccess => Unit
  | serveCounters _ => Unit

def start (environment : Environment) :
    Script StartCall StartCall.Reply (Result (Settings Float)) :=
  match Settings.ofEnvironment environment with
  | .error fault => pure (.error fault)
  | .ok settings => do
    if !(← Script.call StartCall.inClusterAccess) then
      Script.call StartCall.fileAccess
    match settings.metricsPort with
    | some socket => if socket ≠ 0 then Script.call (StartCall.serveCounters socket)
    | none => pure ()
    pure (.ok settings)

end SecretSync
