import SecretSync.Number.Reader
import SecretSync.Time.Span

/-!
Settings of the operator, read from environment variables. Durations are in seconds.
-/

namespace SecretSync

structure Settings (τ : Type) where
  -- Whether AWS calls go to a local stand-in.
  testMode : Bool
  localstackUrl : Text
  awsRegion : Option Text
  vaultAddress : Option Text
  vaultToken : Option Text
  vaultMount : Text
  pulumiEndpoint : Text
  pulumiToken : Option Text
  cacheTtl : Span τ
  -- How long after a successful reconciliation the next one is due.
  requeueAfter : Span τ
  errorRequeueAfter : Span τ
  -- How many backends are asked at the same time.
  maxWorkers : Int
  metricsPort : Option Int

abbrev Environment := Table Text Text

namespace Settings

def defaultLocalstackUrl : Text := "http://localhost:4566/"

def defaultVaultMount : Text := "secret"

def defaultPulumiEndpoint : Text := "https://api.pulumi.com/api/stacks"

def testVaultAddress : Text := "http://localhost:8200"

def testVaultToken : Text := "vault-plaintext-root-token"

def default : Settings Float where
  testMode := false
  localstackUrl := defaultLocalstackUrl
  awsRegion := none
  vaultAddress := none
  vaultToken := none
  vaultMount := defaultVaultMount
  pulumiEndpoint := defaultPulumiEndpoint
  pulumiToken := none
  cacheTtl := .lasting 60
  requeueAfter := .lasting 20
  errorRequeueAfter := .lasting 300
  maxWorkers := 4
  metricsPort := none

def onWords : List Text := ["1", "true", "yes", "on"]

def isOn (t : Text) : Bool := onWords.contains (Text.trim CodePoint.isBlank t).toLower

def nonempty? (environment : Environment) (name : Text) : Option Text :=
  (Table.get? name environment).filter (!·.isEmpty)

-- A duration in seconds, which may be fractional.
def duration (environment : Environment) (name : Text) (fallback : Span Float) :
    Result (Span Float) :=
  match Table.get? name environment with
  | none => .ok fallback
  | some t => do pure (.lasting (← Result.ofOption .unreadable (Numeral.float? t)))

def ofEnvironment (environment : Environment) : Result (Settings Float) := do
  let get (name : Text) : Option Text := Table.get? name environment
  let testMode := (get "TEST_ENV").any isOn
  let testOr (found : Option Text) (fallback : Text) : Option Text :=
    if testMode then some ((found.filter (!·.isEmpty)).getD fallback) else found
  let cacheTtl ← duration environment "RSECRET_CACHE_TTL" default.cacheTtl
  let requeueAfter ← duration environment "RSECRET_REQUEUE_SECONDS" default.requeueAfter
  let errorRequeueAfter ←
    duration environment "RSECRET_ERROR_REQUEUE_SECONDS" default.errorRequeueAfter
  let maxWorkers ← match get "RSECRET_MAX_WORKERS" with
    | none => pure default.maxWorkers
    | some t => Result.ofOption .unreadable (Numeral.int? t)
  let metricsPort ← match nonempty? environment "METRICS_PORT" with
    | none => pure none
    | some t => do pure (some (← Result.ofOption .unreadable (Numeral.int? t)))
  pure {
    testMode
    localstackUrl := (get "LOCALSTACK_URL").getD defaultLocalstackUrl
    awsRegion := (nonempty? environment "AWS_REGION").or (get "AWS_DEFAULT_REGION")
    vaultAddress := testOr (get "VAULT_ADDR") testVaultAddress
    vaultToken := testOr (get "VAULT_TOKEN") testVaultToken
    vaultMount := (get "VAULT_MOUNT_POINT").getD defaultVaultMount
    pulumiEndpoint := (get "PULUMI_ENDPOINT").getD defaultPulumiEndpoint
    pulumiToken := get "PULUMI_ACCESS_TOKEN"
    cacheTtl, requeueAfter, errorRequeueAfter, maxWorkers, metricsPort }

end Settings

end SecretSync
