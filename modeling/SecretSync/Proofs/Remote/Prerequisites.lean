import SecretSync.Proofs.Content.Precedence
import SecretSync.Proofs.Number.Truncation
import SecretSync.Proofs.Remote.Requests

/-!
What has to be set before a backend is asked. Whoever lacks it is told so, and then there is neither a request nor a
connection. Main statement: `Lookup.prerequisites_of_run`.
-/

namespace SecretSync

-- The value is an integer, or is written like one.
inductive Value.Denotes : Value → Int → Prop
  | int (n : Int) : Denotes (.int n) n
  | bool (b : Bool) : Denotes (.bool b) (if b then 1 else 0)
  | float {x : Float} {n : Int} (whole : (Binary64.ofFloat x).toRat? = some (n : ℚ)) : Denotes (.float x) n
  | text {t : Text} {n : Int} (read : Numeral.int? t = some n) : Denotes (.text t) n

namespace Aws

-- What comes of a version. A float that is no integer is not refused: it loses its fraction, and only one that is not
-- even a number counts as unusable.
inductive Version : Value → Result Int → Prop
  | exact {v : Value} {n : Int} (denotes : v.Denotes n) : Version v (.ok n)
  | unusable {v : Value} (inexact : ∀ n, ¬v.Denotes n) (numberless : ∀ x, v = .float x → Binary64.ofFloat x = .nan) :
    Version v (.error (.missingSetting "AppConfig" "version_number"))
  | fraction {x : Float} {q : ℚ} (value : (Binary64.ofFloat x).toRat? = some q) (broken : ∀ n : Int, q ≠ n) :
    Version (.float x) (.ok (towardZero q))
  | infinite {x : Float} {negative : Bool} (value : Binary64.ofFloat x = .infinite negative) :
    Version (.float x) (.error .outOfRange)

theorem versionNumber_float {x : Float} {q : ℚ} (value : (Binary64.ofFloat x).toRat? = some q) :
    versionNumber (.float x) = .ok (towardZero q) := by
  have whole := (Binary64.ofFloat x).truncate?_eq
  rw [value] at whole
  simp only [versionNumber, Value.toInt]
  generalize Binary64.ofFloat x = b at value whole
  cases b
  case nan | infinite => cases value
  case finite =>
    dsimp only
    rw [whole]
    rfl

theorem version_of_float (x : Float) : Version (.float x) (versionNumber (.float x)) := by
  cases b : Binary64.ofFloat x
  case nan =>
    simp only [versionNumber, Value.toInt, b]
    refine .unusable (fun n denotes => ?_) fun _ eq => ?_
    case refine_1 =>
      cases denotes
      case float whole =>
        rw [b] at whole
        cases whole
    case refine_2 =>
      cases eq
      exact b
  case infinite =>
    simp only [versionNumber, Value.toInt, b]
    exact .infinite b
  case finite negative m e =>
    obtain ⟨q, value⟩ : ∃ q, (Binary64.ofFloat x).toRat? = some q := by
      rw [b]
      exact ⟨_, rfl⟩
    rw [versionNumber_float value]
    by_cases broken : ∃ n : Int, q = n
    case neg => exact .fraction value (not_exists.mp broken)
    case pos =>
      obtain ⟨n, rfl⟩ := broken
      rw [towardZero_intCast]
      exact .exact (.float value)

theorem version_of_text (t : Text) : Version (.text t) (versionNumber (.text t)) := by
  cases read : Numeral.int? t
  case some n =>
    simp only [versionNumber, Value.toInt, read]
    exact .exact (.text read)
  case none =>
    simp only [versionNumber, Value.toInt, read]
    refine .unusable (fun n denotes => ?_) fun _ eq => ?_
    case refine_1 =>
      cases denotes
      case text read' => cases read.symm.trans read'
    case refine_2 => cases eq

theorem version_of_value (v : Value) : Version v (versionNumber v) := by
  cases v
  case int n => exact .exact (.int n)
  case bool b => exact .exact (.bool b)
  case float x => exact version_of_float x
  case text t => exact version_of_text t
  all_goals exact .unusable (fun _ denotes => nomatch denotes) fun _ eq => nomatch eq

theorem version_iff {v : Value} {r : Result Int} : Version v r ↔ versionNumber v = r := by
  constructor
  case mpr =>
    intro eq
    exact eq ▸ version_of_value v
  case mp =>
    intro version
    cases version
    case exact n denotes =>
      cases denotes
      case int | bool => rfl
      case float whole => rw [versionNumber_float whole, towardZero_intCast]
      case text read => simp only [versionNumber, Value.toInt, read, Result.ofOption]
    case fraction value _ => exact versionNumber_float value
    case infinite value =>
      simp only [versionNumber, Value.toInt, value]
      rfl
    case unusable inexact numberless =>
      have version := version_of_value v
      generalize versionNumber v = r at version
      cases version
      case unusable => rfl
      case exact denotes => exact absurd denotes (inexact _)
      case fraction value _ =>
        rw [numberless _ rfl] at value
        cases value
      case infinite value => cases (numberless _ rfl).symm.trans value

end Aws

-- A request, where it goes and how the reply to it is read.
structure Request where
  provider : Provider
  call     : RemoteCall
  read     : call.Answer → Result Value

namespace Request

variable {τ : Type} (settings : Settings τ)

def configuration (application profile : Text) (n : Int) : Request where
  provider := .aws .appConfig
  call     := .configuration (.text application) (.text profile) n
  read     := Aws.readConfiguration (.text application)

def pulumiStack (path token : Text) : Request where
  provider := .web
  call     := .httpGet (Pulumi.exportUrl settings path) (Pulumi.headers token)
  read     := fun reply => do Pulumi.readOutputs (← Pulumi.readReply reply)

def vaultSecret (path address token : Text) : Request where
  provider := .vault address token
  call     := .vaultSecret (.text path) settings.vaultMount
  read     := Vault.readReply

end Request

namespace Lookup

variable {τ κ : Type}

-- Either a lookup has all that it needs for its request, or it is told what is missing. A text that is empty is none.
inductive Needs (settings : Settings τ) : Lookup → Result Request → Prop
  | configuration {application profile : Text} {version : Value} {n : Int} (profiled : profile ≠ [])
    (versioned : Aws.Version version (.ok n)) :
    Needs settings (.configuration application (.text profile) version) (.ok (.configuration application profile n))
  | profileless {application : Text} {profile version : Value} (unset : ∀ t, profile = .text t → t = []) :
    Needs settings (.configuration application profile version)
      (.error (.missingSetting "AppConfig" "configuration_profile_id"))
  | versionless {application profile : Text} {version : Value} {fault : Fault} (profiled : profile ≠ [])
    (unversioned : Aws.Version version (.error fault)) :
    Needs settings (.configuration application (.text profile) version) (.error fault)
  | pulumiStack {path token : Text} {declared : Value} (nonempty : token ≠ [])
    (effective : declared = .text token ∨
      (∀ t, declared = .text t → t = []) ∧ settings.pulumiToken = some token) :
    Needs settings (.pulumiStack path declared) (.ok (.pulumiStack settings path token))
  | tokenless {path : Text} {declared : Value} (undeclared : ∀ t, declared = .text t → t = [])
    (unset : ∀ t, settings.pulumiToken = some t → t = []) :
    Needs settings (.pulumiStack path declared) (.error (.missingSetting "Pulumi" "PULUMI_ACCESS_TOKEN"))
  | vaultSecret {path address token : Text} (addressed : settings.vaultAddress = some address)
    (somewhere : address ≠ []) (authorized : settings.vaultToken = some token) (nonempty : token ≠ []) :
    Needs settings (.vaultSecret path) (.ok (.vaultSecret settings path address token))
  | addressless {path : Text} (unset : ∀ t, settings.vaultAddress = some t → t = []) :
    Needs settings (.vaultSecret path) (.error (.missingSetting "Vault" "VAULT_ADDR"))
  | unauthorized {path address : Text} (addressed : settings.vaultAddress = some address)
    (somewhere : address ≠ []) (unset : ∀ t, settings.vaultToken = some t → t = []) :
    Needs settings (.vaultSecret path) (.error (.missingSetting "Vault" "VAULT_TOKEN"))

variable {settings : Settings τ} {api : Api κ} {c c' : Connections} {w w' : World τ κ} {r : Result Value}

-- The request that a lookup comes to and what is read from the reply to it, or the fault that stands in its place.
def Meets (settings : Settings τ) (l : Lookup) (r : Result Value) (c : Connections) (w : World τ κ) (c' : Connections)
    (w' : World τ κ) : Prop :=
  (∃ request, l.Needs settings (.ok request) ∧ w.Asks request.provider request.call request.read r w') ∨
    ∃ fault, l.Needs settings (.error fault) ∧ r = .error fault ∧ c' = c ∧ w' = w

theorem meets_of_checked {α : Type} {l : Lookup} {checked : Result α} {request : α → Request}
    (needs : l.Needs settings (checked.map request)) {connect : Op τ Connections Unit}
    (connects : ∀ a, Op.Connects (request a).provider connect)
    (run : (do
      let a ← Op.ofResult checked
      connect
      Op.ofResult ((request a).read (← Op.remote (request a).call)) : Op τ Connections Value).Run api c w r c' w') :
    Meets settings l r c w c' w' := by
  rcases run.bind_cases with ⟨a, _, _, known, rest⟩ | ⟨fault, rfl, failed⟩
  case inl =>
    obtain ⟨eq, rfl, rfl⟩ := known.eq_of_ofResult
    rw [← eq] at needs
    exact .inl ⟨request a, needs, Op.asks_of_run (connects a) rest⟩
  case inr =>
    obtain ⟨eq, rfl, rfl⟩ := failed.eq_of_ofResult
    rw [← eq] at needs
    exact .inr ⟨fault, needs, rfl, rfl, rfl⟩

theorem meets_of_missing {l : Lookup} {fault : Fault} (needs : l.Needs settings (.error fault))
    (run : (throw fault : Op τ Connections Value).Run api c w r c' w') : Meets settings l r c w c' w' := by
  obtain ⟨rfl, rfl, rfl⟩ := run.eq_of_ofResult
  exact .inr ⟨fault, needs, rfl, rfl, rfl⟩

theorem needs_versionNumber (application : Text) {profile : Text} (profiled : profile ≠ []) (version : Value) :
    Needs settings (.configuration application (.text profile) version)
      ((Aws.versionNumber version).map (Request.configuration application profile)) := by
  have versioned := Aws.version_of_value version
  generalize Aws.versionNumber version = number at versioned
  cases number
  case ok => exact .configuration profiled versioned
  case error => exact .versionless profiled versioned

theorem meets_configuration {application : Text} {profile version : Value} (plain : profile.IsTextOrNull)
    (run : (Aws.configuration settings (.text application) profile version).Run api c w r c' w') :
    Meets settings (.configuration application profile version) r c w c' w' := by
  rw [Aws.configuration] at run
  split at run
  case isFalse absent =>
    refine meets_of_missing (.profileless fun t eq => ?_) run
    subst eq
    simpa [Value.isGiven] using absent
  case isTrue given =>
    obtain rfl | ⟨profile, rfl⟩ := plain
    case inl => cases given
    case inr =>
      have profiled : profile ≠ [] := by simpa [Value.isGiven] using given
      exact meets_of_checked (needs_versionNumber application profiled version)
        (fun _ => Connections.aws_connects settings .appConfig) run

-- What is empty counts as not set.
theorem filter_isEmpty_cases (o : Option Text) :
    (∃ t, o = some t ∧ t ≠ [] ∧ o.filter (!·.isEmpty) = some t) ∨
      (∀ t, o = some t → t = []) ∧ o.filter (!·.isEmpty) = none := by
  rcases o with _ | ⟨_ | ⟨first, others⟩⟩
  case none => exact .inr ⟨nofun, rfl⟩
  case some.nil => exact .inr ⟨fun _ eq => (Option.some.inj eq).symm, rfl⟩
  case some.cons => exact .inl ⟨_, rfl, List.cons_ne_nil _ _, rfl⟩

theorem needs_effectiveToken (path : Text) {declared : Value} (plain : declared.IsTextOrNull) :
    Needs settings (.pulumiStack path declared)
      ((Pulumi.effectiveToken settings declared).map (Request.pulumiStack settings path)) := by
  rw [Pulumi.effectiveToken]
  split
  case isTrue given =>
    obtain rfl | ⟨token, rfl⟩ := plain
    case inl => cases given
    case inr =>
      have nonempty : token ≠ [] := by simpa [Value.isGiven] using given
      exact .pulumiStack nonempty (.inl rfl)
  case isFalse absent =>
    have undeclared (t : Text) (eq : declared = .text t) : t = [] := by
      subst eq
      simpa [Value.isGiven] using absent
    rcases filter_isEmpty_cases settings.pulumiToken with ⟨token, set, nonempty, eq⟩ | ⟨unset, eq⟩
    all_goals rw [eq]
    case inl => exact .pulumiStack nonempty (.inr ⟨undeclared, set⟩)
    case inr => exact .tokenless undeclared unset

theorem meets_pulumiStack {path : Text} {declared : Value} (plain : declared.IsTextOrNull)
    (run : (Pulumi.outputs settings path declared).Run api c w r c' w') :
    Meets settings (.pulumiStack path declared) r c w c' w' :=
  meets_of_checked (needs_effectiveToken path plain) (fun _ => Connections.web_connects) run

theorem meets_vaultSecret {path : Text} (run : (Vault.secret settings (.text path)).Run api c w r c' w') :
    Meets settings (.vaultSecret path) r c w c' w' := by
  rcases filter_isEmpty_cases settings.vaultAddress with ⟨address, addressed, somewhere, known⟩ | ⟨unset, unknown⟩
  case inr =>
    rw [Vault.secret, Connections.connectVault, unknown] at run
    exact meets_of_missing (.addressless unset) run
  case inl =>
    rcases filter_isEmpty_cases settings.vaultToken with ⟨token, authorized, nonempty, held⟩ | ⟨unset, missing⟩
    case inl =>
      exact .inl ⟨_, .vaultSecret addressed somewhere authorized nonempty,
        Op.asks_of_run (Connections.vault_connects known held) run⟩
    case inr =>
      rw [Vault.secret, Connections.connectVault, known, missing] at run
      exact meets_of_missing (.unauthorized addressed somewhere unset) run

-- A backend that something has to be set for is asked for just what is declared, or else not even connected to.
theorem prerequisites_of_run {source : Source} (plain : source.IsPlain) {field : Field} (mem : field ∈ source.fields)
    (backend : source.backend ∈ [.appConfig, .pulumi, .vault]) {l : Lookup} (asked : ofField source field = some l)
    {r : Result Fetched} (run : (l.fetch settings).Run api c w r c' w') :
    ∃ answer : Result Value, r = answer.map .value ∧ Meets settings l answer c w c' w' := by
  simp only [ofField] at asked
  simp only [List.mem_cons, List.not_mem_nil, or_false] at backend
  rcases backend with kind | kind | kind
  all_goals
    rw [kind] at asked
    cases asked
    obtain ⟨answer, eq, run⟩ := run.of_map
    refine ⟨answer, eq, ?_⟩
  case inl => exact meets_configuration (plain.profiles field mem) run
  case inr.inl => exact meets_pulumiStack plain.token run
  case inr.inr => exact meets_vaultSecret run

-- A hosted configuration of which every version says the same.
def hosted : (call : RemoteCall) → Result call.Answer
  | .awsSession => .ok ()
  | .awsClient _ _ _ => .ok ()
  | .configuration _ _ _ => .ok (.object [("Content", .bytes [118])])
  | _ => .error (.remote "no such service")

def halfway : Field where
  value := "app"
  key := .null
  isJson := false
  remotePath := .null
  outputKey := .null
  profile := .text "main"
  version := .float 1.5

theorem versionNumber_halfway : Aws.versionNumber halfway.version = .ok 1 := by
  have value : Binary64.ofFloat 1.5 = .finite false (3 * 2 ^ 51) (-52) := by decide +kernel
  simp only [halfway, Aws.versionNumber, Value.toInt, value]
  rfl

theorem run_halfway (w : World Int Unit) : ∃ c' w',
    ((Lookup.configuration "app" (.text "main") (.float 1.5)).fetch Settings.inSeconds).Run .any .none w
      (.ok (.value (.text "v"))) c' w' := by
  obtain ⟨c', eq⟩ : ∃ c', (Aws.configuration Settings.inSeconds (.text "app") (.text "main") halfway.version).answered
      (Content.still hosted) .none () = ((.ok (.text "v"), c'), ()) := by
    rw [Aws.configuration, versionNumber_halfway]
    exact ⟨_, rfl⟩
  obtain ⟨w', run⟩ := Op.exists_run _ w eq
  exact ⟨c', w', run.bind (.pure _)⟩

-- The version between the first two is taken for the first one.
theorem prerequisites_of_run_halfway : ∃ c' w',
    ((Lookup.configuration "app" (.text "main") (.float 1.5)).fetch Settings.inSeconds).Run .any .none
      (⟨(), []⟩ : World Int Unit) (.ok (.value (.text "v"))) c' w' ∧
    World.Asks ⟨(), []⟩ (.aws .appConfig) (.configuration (.text "app") (.text "main") 1)
      (Aws.readConfiguration (.text "app")) (.ok (.text "v")) w' := by
  have plain : Source.IsPlain ⟨.appConfig, [halfway], .null⟩ :=
    ⟨.inl rfl, List.forall_mem_singleton.mpr (Value.isTextOrNull_text _)⟩
  have ⟨c', w', run⟩ := run_halfway ⟨(), []⟩
  refine ⟨c', w', run, ?_⟩
  obtain ⟨answer, same, meets⟩ := prerequisites_of_run plain List.mem_cons_self (by simp) rfl run
  cases Fetched.eq_of_map same.symm
  obtain ⟨request, needs, asks⟩ | ⟨_, _, failed, _⟩ := meets
  case inr => cases failed
  case inl =>
    cases needs
    case configuration n _ versioned =>
      have first : n = 1 := Except.ok.inj ((Aws.version_iff.mp versioned).symm.trans versionNumber_halfway)
      exact first ▸ asks

end Lookup
end SecretSync
