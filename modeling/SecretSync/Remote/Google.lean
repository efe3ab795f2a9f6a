import SecretSync.Digest.Crc32c
import SecretSync.Number.Reader
import SecretSync.Remote.Connections
import SecretSync.Sorting
import SecretSync.Value.Access

/-!
Secrets held by Google Cloud. The value of a secret is that of its most recent enabled version, so
that a bad version is withdrawn by disabling it. A name may pin a version, which then is the highest
one that counts.
-/

namespace SecretSync

structure GoogleName where
  -- The secret itself, without a version.
  secret : Text
  -- The digits of a pinned version.
  pin : Option Text
deriving DecidableEq, Repr

namespace GoogleName

private def newline : CodePoint := '\n'

def dropNewline (t : Text) : Text :=
  if t.getLast? = some newline then t.dropLast else t

-- The version of a name: the word for the latest one, which pins nothing, or digits.
def version? (t : Text) : Option (Option Text) :=
  let t := dropNewline t
  if t = Text.ofString "latest" then some none
  else if !t.isEmpty && t.all (·.digit?.isSome) then some (some t)
  else none

-- The name that a text is: project and secret, and perhaps a version.
def ofText? (t : Text) : Option GoogleName :=
  match Text.split '/' t with
  | [projects, project, secrets, secret] =>
    if isSecret projects project secrets secret then
      some ⟨Text.join ['/'] [projects, project, secrets, secret], none⟩
    else none
  | [projects, project, secrets, secret, versions, version] =>
    if isSecret projects project secrets secret && versions = Text.ofString "versions" then
      (version? version).map fun pin =>
        ⟨Text.join ['/'] [projects, project, secrets, secret], pin⟩
    else none
  | _ => none
where
  isSecret (projects project secrets secret : Text) : Bool :=
    projects = Text.ofString "projects" && !project.isEmpty && secrets = Text.ofString "secrets"
      && !secret.isEmpty

end GoogleName

namespace Google

variable {τ : Type}

def versionNumber (version : SecretVersion) : Result Int := do
  let last ← Result.ofOption .noSuchPosition (Text.afterLast? '/' version.name)
  Result.ofOption .unreadable (Numeral.int? last)

def qualifies (pin : Option Text) (version : SecretVersion) : Result Bool :=
  match pin with
  | none => .ok true
  | some digits => do
    let number ← versionNumber version
    let limit ← Result.ofOption .unreadable (Numeral.int? digits)
    pure (number ≤ limit)

-- The later of two versions; the first one, if they were created at the same time.
def later (best : Option SecretVersion) (version : SecretVersion) : SecretVersion :=
  match best with
  | none => version
  | some best => if best.created < version.created then version else best

def latest (pin : Option Text) (best : Option SecretVersion) :
    List SecretVersion → Result (Option SecretVersion)
  | [] => .ok best
  | version :: rest => do
    if ← qualifies pin version then latest pin (some (later best version)) rest
    else latest pin best rest

def selectVersion (name : GoogleName) (versions : List SecretVersion) : Result SecretVersion := do
  let ordered := Sorting.sort (fun a b => a.created < b.created) versions
  match ← latest name.pin none ordered with
  | some version => pure version
  | none => throw (.noActiveVersion (.text name.secret))

def readPayload (version : SecretVersion) (payload : SecretPayload) : Result Value := do
  if payload.checksum ≠ 0 && payload.checksum ≠ (Crc32c.checksum payload.data).toNat then
    throw (.checksumMismatch (.text version.name))
  else pure (.text (← (Value.bytes payload.data).decode))

-- Checks what a request is to name. The operator does not do this itself: the client library of the
-- service puts requests together as messages whose texts are in UTF-8, and refuses a name that has
-- no such form.
def checkName (name : Text) : Result Unit := do
  let _ ← Value.encodeText name

-- The value of a secret. A request is put together before there has to be a connection for it.
def secretOf (name : GoogleName) : Op τ Connections Value := do
  Op.ofResult (checkName name.secret)
  Connections.google
  let version ← Op.ofResult (selectVersion name (← Op.remote (.secretVersions name.secret)))
  Op.ofResult (checkName version.name)
  Connections.google
  let payload ← Op.remote (.secretPayload version.name)
  Op.ofResult (readPayload version payload)

def secret (name : Text) : Op τ Connections Value := do
  match GoogleName.ofText? name with
  | some name => secretOf name
  | none => throw .lacksOperation

end Google

end SecretSync
