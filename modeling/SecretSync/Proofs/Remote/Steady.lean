import SecretSync.Proofs.Effect.Responder
import SecretSync.Proofs.Lookup

/-!
Remote services that answer every call in one way. A lookup then gives the same whenever it is made,
and on whatever connections: those that are kept were made by calls that succeed. Main statement:
`exists_steady`.
-/

namespace SecretSync

variable {τ ς : Type} {responder : Responder τ ς} (settings : Settings τ)
  (told : (call : RemoteCall) → Result call.Answer)

namespace Connections

-- The call that makes a client for an AWS service.
@[reducible]
def awsClient (service : AwsService) : RemoteCall :=
  .awsClient service (settings.awsRegion.filter (!·.isEmpty))
    (if settings.testMode then some settings.localstackUrl else .none)

-- Every connection was made by calls that succeed.
structure Fits (c : Connections) : Prop where
  awsSession : c.awsSession = true → told .awsSession = .ok ()
  awsClients : ∀ service ∈ c.awsClients, told (awsClient settings service) = .ok ()
  googleCredentials : ∀ text, c.googleCredentials = some text → told .googleCredentials = .ok text
  googleClient : c.googleClient = true →
    ∃ text, told .googleCredentials = .ok text ∧ told (.googleClient text) = .ok ()
  vault : c.vault = true → ∀ address token, settings.vaultAddress.filter (!·.isEmpty) = some address →
    settings.vaultToken.filter (!·.isEmpty) = some token → told (.vaultClient address token) = .ok ()
  http : c.http = true → told .httpSession = .ok ()

variable {told}

theorem fits_none : Fits settings told Connections.none where
  awsSession := nofun
  awsClients := nofun
  googleCredentials := nofun
  googleClient := nofun
  vault := nofun
  http := nofun

-- Connecting unless that has been done.
theorem unless_computes {ask : Op τ Connections Unit} {r : Result Unit} {I : Connections → Prop}
    (asked : ask.Computes responder (fun c _ => I c) r) {made : Connections → Bool}
    {keep : Connections → Connections} (known : ∀ c, I c → made c = true → r = .ok ())
    (kept : ∀ c, I c → r = .ok () → I (keep c)) :
    (do if !made (← get) then ask; modify keep : Op τ Connections Unit).Computes responder
      (fun c _ => I c) r := by
  intro c m fits
  apply Op.Comes.get_bind
  cases done : made c
  case false =>
    apply (asked c m fits).bind
    case ok =>
      intro _ connected c m fits
      exact connected ▸ Op.Comes.modify (kept c fits connected)
    case error => exact fun _ failed => ⟨failed, fun _ _ => id⟩
  case true => exact known c fits done ▸ Op.Comes.pure fits

variable (tells : responder.Tells told)
include tells

theorem awsClient_computes (service : AwsService) :
    (do
      if !(← get).awsClients.contains service then
        Op.remote (awsClient settings service)
        modify fun s => { s with awsClients := service :: s.awsClients } : Op τ Connections Unit).Computes
      responder (fun c _ => Fits settings told c) (told (awsClient settings service)) := by
  apply unless_computes (Op.computes_remote tells (awsClient settings service))
  case known => exact fun c fits done => fits.awsClients service (by simpa using done)
  case kept =>
    exact fun c fits connected =>
      { fits with awsClients := List.forall_mem_cons.mpr ⟨connected, fits.awsClients⟩ }

theorem aws_isFixed (service : AwsService) :
    (aws settings service).IsFixed responder fun c _ => Fits settings told c := by
  refine ⟨do told .awsSession; told (awsClient settings service), fun c m fits => ?_⟩
  have client := awsClient_computes settings tells service
  simp only [aws]
  apply Op.Comes.get_bind
  cases known : c.awsSession
  case false =>
    apply ((Op.computes_remote tells _).bind fun _ connected => ?_) c m fits
    intro c m fits
    have fits : Fits settings told { c with awsSession := true } :=
      { fits with awsSession := fun _ => connected }
    exact Op.Comes.modify_bind (client _ m fits)
  case true =>
    rw [fits.awsSession known]
    exact client c m fits

theorem googleAccess_computes :
    (googleAccess : Op τ Connections Text).Computes responder (fun c _ => Fits settings told c)
      (told .googleCredentials) := by
  intro c m fits
  apply Op.Comes.get_bind
  cases known : c.googleCredentials
  case some text => exact fits.googleCredentials text known ▸ Op.Comes.pure fits
  case none =>
    apply (Op.computes_remote tells _ c m fits).bind
    case ok =>
      intro text connected c m fits
      have fits : Fits settings told { c with googleCredentials := some text } :=
        { fits with googleCredentials := fun _ eq => Option.some.inj eq ▸ connected }
      exact Op.Comes.modify_bind (connected ▸ Op.Comes.pure fits)
    case error => exact fun _ failed => ⟨failed, fun _ _ => id⟩

theorem google_isFixed :
    (google : Op τ Connections Unit).IsFixed responder fun c _ => Fits settings told c := by
  refine ⟨do told (.googleClient (← told .googleCredentials)), fun c m fits => ?_⟩
  apply Op.Comes.get_bind
  cases known : c.googleClient
  case false =>
    apply ((googleAccess_computes settings tells).bind fun text access => ?_) c m fits
    intro c m fits
    apply (Op.computes_remote tells _ c m fits).bind
    case ok =>
      intro _ connected c m fits
      have fits : Fits settings told { c with googleClient := true } :=
        { fits with googleClient := fun _ => ⟨text, access, connected⟩ }
      exact connected ▸ Op.Comes.modify fits
    case error => exact fun _ failed => ⟨failed, fun _ _ => id⟩
  case true =>
    have ⟨text, access, connected⟩ := fits.googleClient known
    rw [access]
    change Op.Comes responder (pure ()) c m (told (.googleClient text)) _
    rw [connected]
    exact Op.Comes.pure fits

theorem connectVault_isFixed :
    (connectVault settings).IsFixed responder fun c _ => Fits settings told c := by
  simp only [connectVault]
  cases address : settings.vaultAddress.filter (!·.isEmpty)
  case none => exact Op.isFixed_throw _
  case some a =>
    cases token : settings.vaultToken.filter (!·.isEmpty)
    case none => exact Op.isFixed_throw _
    case some t =>
      refine ⟨_, unless_computes (Op.computes_remote tells (.vaultClient a t)) ?known ?kept⟩
      case known => exact fun c fits done => fits.vault done a t address token
      case kept =>
        intro c fits connected
        refine { fits with vault := fun _ a' t' address' token' => ?_ }
        rw [address] at address'
        rw [token] at token'
        cases address'
        cases token'
        exact connected

theorem web_isFixed :
    (web : Op τ Connections Unit).IsFixed responder fun c _ => Fits settings told c := by
  refine ⟨_, unless_computes (Op.computes_remote tells .httpSession) ?known ?kept⟩
  case known => exact fun c fits done => fits.http done
  case kept => exact fun c fits connected => { fits with http := fun _ => connected }

end Connections

variable {told} (tells : responder.Tells told)
include tells

-- One request on a connection, and what is read from the reply.
theorem Op.request_isFixed {α : Type} {connect : Op τ Connections Unit} {call : RemoteCall}
    {read : call.Answer → Result α}
    (connected : connect.IsFixed responder fun c _ => Connections.Fits settings told c) :
    (do connect; ofResult (read (← remote call))).IsFixed responder
      fun c _ => Connections.Fits settings told c :=
  connected.bind fun _ => (isFixed_remote tells call).bind fun _ => isFixed_ofResult _

theorem Aws.configuration_isFixed (application profile version : Value) :
    (Aws.configuration settings application profile version).IsFixed responder
      fun c _ => Connections.Fits settings told c := by
  simp only [Aws.configuration]
  split
  case isTrue =>
    exact (Op.isFixed_ofResult _).bind fun _ =>
      Op.request_isFixed settings tells (Connections.aws_isFixed settings tells .appConfig)
  case isFalse => exact Op.isFixed_throw _

theorem Google.secretOf_isFixed (name : GoogleName) :
    (Google.secretOf name : Op τ Connections Value).IsFixed responder
      fun c _ => Connections.Fits settings told c := by
  have connected := Connections.google_isFixed settings tells
  apply (Op.isFixed_ofResult _).bind fun _ => connected.bind fun _ => ?_
  apply (Op.isFixed_remote tells _).bind fun _ => (Op.isFixed_ofResult _).bind fun version => ?_
  exact (Op.isFixed_ofResult _).bind fun _ => Op.request_isFixed settings tells connected

theorem Google.secret_isFixed (name : Text) :
    (Google.secret name : Op τ Connections Value).IsFixed responder
      fun c _ => Connections.Fits settings told c := by
  simp only [Google.secret]
  split
  case h_1 => exact Google.secretOf_isFixed settings tells _
  case h_2 => exact Op.isFixed_throw _

theorem Lookup.fetch_isFixed (l : Lookup) :
    (l.fetch settings).IsFixed responder fun c _ => Connections.Fits settings told c := by
  have aws (service : AwsService) := Connections.aws_isFixed settings tells service
  have shaped {α : Type} {op : Op τ Connections α} (f : α → Fetched)
      (fixed : op.IsFixed responder fun c _ => Connections.Fits settings told c) :
      (do pure (f (← op)) : Op τ Connections Fetched).IsFixed responder
        fun c _ => Connections.Fits settings told c :=
    fixed.bind fun _ => Op.isFixed_pure _
  cases l
  case parameter => exact shaped _ (Op.request_isFixed settings tells (aws .ssm))
  case secret name =>
    simp only [Lookup.fetch]
    split
    case isTrue => exact shaped _ (Google.secret_isFixed settings tells name)
    case isFalse => exact shaped _ (Op.request_isFixed settings tells (aws .secretsManager))
  case stack => exact shaped _ (Op.request_isFixed settings tells (aws .cloudformation))
  case configuration => exact shaped _ (Aws.configuration_isFixed settings tells _ _ _)
  case pulumiStack =>
    have web := Connections.web_isFixed settings tells
    exact shaped _ ((Op.isFixed_ofResult _).bind fun _ => Op.request_isFixed settings tells web)
  case vaultSecret =>
    have vault := Connections.connectVault_isFixed settings tells
    exact shaped _ (Op.request_isFixed settings tells vault)

-- Each lookup has one outcome, whenever it is made. `fits` tells which connections there can be, `calm`
-- what the responder can remember.
structure Steady (responder : Responder τ ς) (fits : Connections → Prop) (calm : ς → Prop)
    (outcome : Lookup → Result Fetched) : Prop where
  fetch : ∀ l, (Lookup.fetch settings l).Computes responder (fun c m => fits c ∧ calm m) (outcome l)
  now : ∀ m, calm m → calm (responder .now m).2
  fresh : fits .none

theorem exists_steady :
    ∃ outcome, Steady settings responder (Connections.Fits settings told) (fun _ => True) outcome := by
  choose outcome computed using Lookup.fetch_isFixed settings tells
  refine ⟨outcome, ?_, fun _ _ => trivial, Connections.fits_none settings⟩
  simpa only [and_true] using computed

omit tells in
theorem Steady.outcome_eq {fits : Connections → Prop} {calm : ς → Prop}
    {outcome : Lookup → Result Fetched} {settings : Settings τ}
    (steady : Steady settings responder fits calm outcome) {l l' : Lookup} {m : ς}
    (same : Lookup.SameRequest settings l l') (calm : calm m) : outcome l = outcome l' := by
  have fetched := same.fetch_eq ▸ steady.fetch l
  exact fetched.unique (steady.fetch l') ⟨steady.fresh, calm⟩

end SecretSync
