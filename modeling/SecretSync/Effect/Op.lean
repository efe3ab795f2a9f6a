import SecretSync.Cluster.Call
import SecretSync.Effect.Script
import SecretSync.Remote.Call
import SecretSync.Time.Timeline

/-!
Operations: scripts of calls to the cluster, to remote services and to the clock, which keep a state
and can fail. What an operation did to the state before it failed stays done.
-/

namespace SecretSync

-- The calls of an operation. `τ` is the type of times.
inductive Call (τ : Type) where
  | cluster (call : ClusterCall)
  | remote (call : RemoteCall)
  | now
  | wait (duration : τ)

@[reducible]
def Call.Reply {τ : Type} : Call τ → Type
  | cluster c => Result c.Answer
  | remote c => Result c.Answer
  | now => τ
  | wait _ => Unit

abbrev Op (τ σ : Type) := ExceptT Fault (StateT σ (Script (Call τ) Call.Reply))

namespace Op

variable {τ σ ρ α : Type}

def ofScript (f : σ → Script (Call τ) Call.Reply (Result α × σ)) : Op τ σ α := f

def script (op : Op τ σ α) (s : σ) : Script (Call τ) Call.Reply (Result α × σ) := op s

def perform (c : Call τ) : Op τ σ c.Reply :=
  ofScript fun s => do pure (.ok (← Script.call c), s)

def ofResult (r : Result α) : Op τ σ α := ofScript fun s => .done (r, s)

def cluster (c : ClusterCall) : Op τ σ c.Answer :=
  ofScript fun s => do
    let reply ← Script.call (Call.cluster c)
    pure (reply, s)

def remote (c : RemoteCall) : Op τ σ c.Answer :=
  ofScript fun s => do
    let reply ← Script.call (Call.remote c)
    pure (reply, s)

def now : Op τ σ τ := perform .now

def wait (duration : τ) : Op τ σ Unit := perform (.wait duration)

-- The result of an operation, whose fault is not passed on.
def attempt (op : Op τ σ α) : Op τ σ (Result α) :=
  ofScript fun s => do
    let (r, s) ← op.script s
    pure (.ok r, s)

def within (part : σ → ρ) (replace : ρ → σ → σ) (op : Op τ ρ α) : Op τ σ α :=
  ofScript fun s => do
    let (r, p) ← op.script (part s)
    pure (r, replace p s)

-- An operation on a state of its own, with the state that it ends in.
def on (start : ρ) (op : Op τ ρ α) : Op τ σ (Result α × ρ) :=
  ofScript fun s => do
    let found ← op.script start
    pure (.ok found, s)

/-! What each operation does to a state, and which calls it makes. -/

variable {β : Type} (s : σ)

@[simp]
theorem script_pure (a : α) : (pure a : Op τ σ α).script s = pure (.ok a, s) := rfl

@[simp]
theorem script_throw (fault : Fault) :
    (throw fault : Op τ σ α).script s = pure (.error fault, s) := rfl

theorem script_bind (op : Op τ σ α) (f : α → Op τ σ β) :
    (op >>= f).script s = op.script s >>= fun (r, s) =>
      match r with
      | .ok a => (f a).script s
      | .error fault => pure (.error fault, s) := by
  simp only [script, bind, ExceptT.bind, ExceptT.mk, ExceptT.bindCont, StateT.bind]
  congr
  funext ⟨r, s⟩
  cases r <;> rfl

@[simp]
theorem script_get : (get : Op τ σ σ).script s = pure (.ok s, s) := rfl

@[simp]
theorem script_modify (f : σ → σ) :
    (modify f : Op τ σ Unit).script s = pure (.ok (), f s) := rfl

@[simp]
theorem script_ofResult (r : Result α) : (ofResult r : Op τ σ α).script s = pure (r, s) := rfl

@[simp]
theorem script_cluster (c : ClusterCall) :
    (cluster c : Op τ σ c.Answer).script s = .ask (.cluster c) fun reply => pure (reply, s) := rfl

@[simp]
theorem script_remote (c : RemoteCall) :
    (remote c : Op τ σ c.Answer).script s = .ask (.remote c) fun reply => pure (reply, s) := rfl

@[simp]
theorem script_now : (now : Op τ σ τ).script s = .ask .now fun time => pure (.ok time, s) := rfl

@[simp]
theorem script_wait (duration : τ) :
    (wait duration : Op τ σ Unit).script s = .ask (.wait duration) fun _ => pure (.ok (), s) := rfl

theorem script_attempt (op : Op τ σ α) :
    (attempt op).script s = op.script s >>= fun (r, s) => pure (.ok r, s) := rfl

theorem script_within (part : σ → ρ) (replace : ρ → σ → σ) (op : Op τ ρ α) :
    (within part replace op).script s = op.script (part s) >>= fun (r, p) =>
      pure (r, replace p s) := rfl

theorem script_on (start : ρ) (op : Op τ ρ α) :
    (on start op : Op τ σ (Result α × ρ)).script s = op.script start >>= fun found =>
      pure (.ok found, s) := rfl

end Op

end SecretSync
