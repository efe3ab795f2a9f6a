import SecretSync.Lookup
import SecretSync.Proofs.Effect.Run

/-!
Connections and requests. A connection is made before a request and carries nothing of it; unless it fails, the
request is sent. Main statement: `Op.asks_of_run`.
-/

namespace SecretSync

variable {τ κ σ α β : Type}

theorem Fetched.eq_of_map {answer : Result Value} {v : Value} (h : answer.map Fetched.value = .ok (.value v)) :
    answer = .ok v := by
  cases answer
  all_goals cases h
  rfl

-- What can be connected to.
inductive Provider where
  | aws (service : AwsService)
  | google
  | vault (address token : Text)
  | web

-- The calls that only connect to a provider.
inductive Provider.Connection : Provider → RemoteCall → Prop
  | awsSession {service : AwsService} : Connection (.aws service) .awsSession
  | awsClient {service : AwsService} (region endpoint : Option Text) :
    Connection (.aws service) (.awsClient service region endpoint)
  | googleCredentials : Connection .google .googleCredentials
  | googleClient (credentials : Text) : Connection .google (.googleClient credentials)
  | vaultClient (address token : Text) : Connection (.vault address token) (.vaultClient address token)
  | httpSession : Connection .web .httpSession

namespace World

variable {w w₁ w₂ : World τ κ} {provider : Provider}

-- Between `w` and `w'` a provider was connected to, and nothing else was called.
def Connects (w : World τ κ) (provider : Provider) (w' : World τ κ) : Prop :=
  w.Through (fun step => ∃ call, step.call = .remote call ∧ provider.Connection call) w'

-- The same, but the last connection failed.
inductive Unconnected (w : World τ κ) (provider : Provider) (fault : Fault) : World τ κ → Prop
  | intro {v : World τ κ} {call : RemoteCall} {state : κ} (before : w.Connects provider v)
    (connection : provider.Connection call) :
    Unconnected w provider fault (v.next (.remote call) (.error fault) state state)

theorem Unconnected.after {fault : Fault} (h : w₁.Unconnected provider fault w₂) (before : w.Connects provider w₁) :
    w.Unconnected provider fault w₂ := by
  cases h
  case intro between connection => exact .intro (before.trans between) connection

-- Between `w` and `w'` this is asked for and nothing else, once the provider is connected; the result is read from the
-- reply.
inductive Asks (w : World τ κ) (provider : Provider) (request : RemoteCall) (read : request.Answer → Result α) :
    Result α → World τ κ → Prop
  | unconnected {fault : Fault} {w' : World τ κ} (h : w.Unconnected provider fault w') :
    Asks w provider request read (.error fault) w'
  | asked {v : World τ κ} (reply : Result request.Answer) {state : κ} (before : w.Connects provider v) :
    Asks w provider request read (reply >>= read) (v.next (.remote request) reply state state)

end World

namespace Op

-- All that the operation does is to connect, and it only fails for lack of a connection.
def Connects (provider : Provider) (op : Op τ σ α) : Prop :=
  ∀ (κ : Type) (api : Api κ) (s : σ) (w : World τ κ), op.Ensures api s w (fun _ _ w' => w.Connects provider w')
    fun fault _ w' => w.Unconnected provider fault w'

namespace Connects

variable {provider : Provider}

theorem pure (a : α) : Connects provider (pure a : Op τ σ α) :=
  fun _ _ _ w => (ensures_pure _).mpr (.refl w)

theorem get : Connects provider (get : Op τ σ σ) :=
  fun _ _ _ w => ensures_get.mpr (.refl w)

theorem modify (f : σ → σ) : Connects provider (modify f : Op τ σ Unit) :=
  fun _ _ _ w => (ensures_modify f).mpr (.refl w)

theorem remote {call : RemoteCall} (connection : provider.Connection call) :
    Connects provider (remote call : Op τ σ call.Answer) := by
  intro _ _ _ w
  apply (ensures_remote call).mpr
  intro reply state _
  cases reply
  case ok => exact .next ⟨call, rfl, connection⟩
  case error => exact .intro (.refl w) connection

theorem bind {op : Op τ σ α} {f : α → Op τ σ β} (h : Connects provider op) (hf : ∀ a, Connects provider (f a)) :
    Connects provider (op >>= f) := by
  intro _ api s w
  refine (h _ api s w).bind fun a s₁ w₁ before => (hf a _ api s₁ w₁).mono ?_ ?_
  case refine_1 => exact fun _ _ _ => before.trans
  case refine_2 => exact fun _ _ _ failed => failed.after before

theorem ite {c : Prop} [Decidable c] {op₁ op₂ : Op τ σ α} (h₁ : Connects provider op₁) (h₂ : Connects provider op₂) :
    Connects provider (if c then op₁ else op₂) := by
  split <;> assumption

end Connects
end Op

namespace Connections

open Op (Connects)

theorem aws_connects (settings : Settings τ) (service : AwsService) :
    Connects (.aws service) (aws settings service) := by
  refine .bind .get fun _ => .ite (.bind (.remote .awsSession) fun _ => .bind (.modify _) fun _ => ?_) ?_
  all_goals
    refine .bind .get fun _ => .ite ?_ (.pure _)
    exact .bind (.remote (.awsClient _ _)) fun _ => .modify _

theorem googleAccess_connects : Connects .google (googleAccess : Op τ Connections Text) := by
  refine .bind .get fun connections => ?_
  cases connections.googleCredentials
  case none => exact .bind (.remote .googleCredentials) fun _ => .bind (.modify _) fun _ => .pure _
  case some => exact .pure _

theorem google_connects : Connects .google (google : Op τ Connections Unit) := by
  refine .bind .get fun _ => .ite (.bind googleAccess_connects fun _ => ?_) (.pure _)
  exact .bind (.remote (.googleClient _)) fun _ => .modify _

theorem web_connects : Connects .web (web : Op τ Connections Unit) :=
  .bind .get fun _ => .ite (.bind (.remote .httpSession) fun _ => .modify _) (.pure _)

theorem vault_connects {settings : Settings τ} {address token : Text}
    (addressed : settings.vaultAddress.filter (!·.isEmpty) = some address)
    (authorized : settings.vaultToken.filter (!·.isEmpty) = some token) :
    Connects (.vault address token) (connectVault settings) := by
  simp only [connectVault, addressed, authorized]
  exact .bind .get fun _ => .ite (.bind (.remote (.vaultClient _ _)) fun _ => .modify _) (.pure _)

end Connections

namespace Op

variable {provider : Provider} {connect : Op τ σ Unit}

variable {api : Api κ} {s s' : σ} {w w' : World τ κ}

-- A request over a connection, and what is read from the reply.
theorem asks_of_run (connects : Connects provider connect) {request : RemoteCall} {read : request.Answer → Result α}
    {r : Result α}
    (run : (do connect; ofResult (read (← remote request)) : Op τ σ α).Run api s w r s' w') :
    w.Asks provider request read r w' := by
  rcases run.bind_cases with ⟨_, s₁, v, connected, run⟩ | ⟨_, rfl, failed⟩
  case inr => exact .unconnected (connects _ _ _ _ _ _ _ failed)
  case inl =>
    have before : w.Connects provider v := connects _ _ _ _ _ _ _ connected
    rcases run.bind_cases with ⟨answer, _, _, asked, rest⟩ | ⟨fault, rfl, asked⟩
    all_goals obtain ⟨rfl, _, rfl⟩ := asked.eq_of_remote
    case inr => exact .asked (.error fault) before
    case inl =>
      obtain ⟨rfl, rfl, rfl⟩ := rest.eq_of_ofResult
      exact .asked (.ok answer) before

end Op
end SecretSync
