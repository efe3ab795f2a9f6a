import SecretSync.Proofs.Effect.Responder
import SecretSync.Proofs.Remote.GoogleName
import SecretSync.Proofs.Remote.Selection
import SecretSync.Proofs.Result
import SecretSync.Proofs.Text.Utf8

/-!
What is asked of Google for a secret: its versions are listed once, and at most one of them is read. Main statement:
`Google.gives_of_spells`.
-/

namespace SecretSync.Google

open GoogleName (Spells)
open Numeral (maxDigits)
open Sorting (IsLatest)

variable {τ : Type}

-- A secret manager: the versions that it lists, and what it gives for the name of a version.
structure Manager where
  credentials : Text
  versions    : List SecretVersion
  payload     : Text → Result SecretPayload

variable (elsewhere : (call : Call τ) → call.Reply) (manager : Manager)

-- Connecting to a manager succeeds. Its requests are noted, as are all other calls, which are answered anyhow.
def Manager.noting : Responder τ (List (Call τ))
  | .remote .googleCredentials => fun asked => (.ok manager.credentials, asked)
  | .remote (.googleClient _) => fun asked => (.ok (), asked)
  | .remote (.secretVersions secret) => fun asked =>
    (.ok manager.versions, asked ++ [.remote (.secretVersions secret)])
  | .remote (.secretPayload version) => fun asked =>
    (manager.payload version, asked ++ [.remote (.secretPayload version)])
  | call => fun asked => (elsewhere call, asked ++ [call])

-- An operation comes to a result with these requests, whatever is connected and was asked before.
def Manager.Gives (op : Op τ Connections Value) (r : Result Value) (requests : List RemoteCall) : Prop :=
  ∀ (c : Connections) (asked : List (Call τ)),
    op.Comes (manager.noting elsewhere) c asked r fun _ asked' => asked' = asked ++ requests.map .remote

-- What becomes of the reply to a request for a version.
inductive Received (version : SecretVersion) : Result SecretPayload → Result Value → Prop
  | failed {fault : Fault} : Received version (.error fault) (.error fault)
  | mismatch {payload : SecretPayload} (given : payload.checksum ≠ 0)
    (wrong : payload.checksum ≠ (Crc32c.checksum payload.data).toNat) :
    Received version (.ok payload) (.error (.checksumMismatch (.text version.name)))
  | text {payload : SecretPayload} {t : Text}
    (right : payload.checksum = 0 ∨ payload.checksum = (Crc32c.checksum payload.data).toNat)
    (written : t.utf8? = some payload.data) : Received version (.ok payload) (.ok (.text t))
  | malformed {payload : SecretPayload}
    (right : payload.checksum = 0 ∨ payload.checksum = (Crc32c.checksum payload.data).toNat)
    (unwritten : ∀ t : Text, t.utf8? ≠ some payload.data) : Received version (.ok payload) (.error .notDecodable)

theorem readPayload_of_mismatch {payload : SecretPayload} (given : payload.checksum ≠ 0)
    (wrong : payload.checksum ≠ (Crc32c.checksum payload.data).toNat) (version : SecretVersion) :
    readPayload version payload = .error (.checksumMismatch (.text version.name)) := by
  simp [readPayload, given, wrong, throw, throwThe, MonadExceptOf.throw]

theorem readPayload_of_right {payload : SecretPayload}
    (right : payload.checksum = 0 ∨ payload.checksum = (Crc32c.checksum payload.data).toNat)
    (version : SecretVersion) : readPayload version payload =
      (Result.ofOption .notDecodable (Text.ofUtf8? payload.data)).map Value.text := by
  rcases right with absent | same
  case inl => simp [readPayload, absent, Value.decode]; rfl
  case inr => simp [readPayload, same, Value.decode]; rfl

theorem received_iff {version : SecretVersion} {reply : Result SecretPayload} {r : Result Value} :
    Received version reply r ↔ reply >>= readPayload version = r := by
  constructor
  case mp =>
    intro received
    cases received
    case failed => rfl
    case mismatch given wrong => exact readPayload_of_mismatch given wrong version
    case text right written =>
      refine (readPayload_of_right right version).trans ?_
      rw [Text.ofUtf8?_eq_some_iff.mpr written]
      rfl
    case malformed payload right unwritten =>
      refine (readPayload_of_right right version).trans ?_
      cases read : Text.ofUtf8? payload.data
      case none => rfl
      case some t => exact absurd (Text.ofUtf8?_eq_some_iff.mp read) (unwritten t)
  case mpr =>
    intro eq
    subst eq
    cases reply
    case error => exact .failed
    case ok payload =>
      change Received version (.ok payload) (readPayload version payload)
      by_cases right : payload.checksum = 0 ∨ payload.checksum = (Crc32c.checksum payload.data).toNat
      case neg =>
        obtain ⟨given, wrong⟩ := not_or.mp right
        exact readPayload_of_mismatch given wrong version ▸ .mismatch given wrong
      case pos =>
        rw [readPayload_of_right right]
        cases read : Text.ofUtf8? payload.data
        case some t => exact .text right (Text.ofUtf8?_eq_some_iff.mp read)
        case none =>
          refine .malformed right fun t written => ?_
          rw [Text.ofUtf8?_eq_some_iff.mpr written] at read
          cases read

theorem checkName_eq (t : Text) : checkName t = if t.isScalar then .ok () else .error .notEncodable := by
  rw [checkName, Value.encodeText, Text.utf8?]
  split <;> rfl

variable {elsewhere manager} {name : GoogleName} {version : SecretVersion} {r : Result Value}
  {requests : List RemoteCall}

theorem comes_google (c : Connections) (asked : List (Call τ)) :
    Connections.google.Comes (manager.noting elsewhere) c asked (.ok ()) fun _ asked' => asked' = asked := by
  have ⟨_, _, credentials, connected, _, _⟩ := c
  cases connected
  case true => exact ⟨_, asked, rfl, rfl⟩
  case false =>
    cases credentials
    all_goals exact ⟨_, asked, rfl, rfl⟩

section

variable {op : Op τ Connections Value} {t : Text}

theorem gives_of_surrogate (surrogate : t.isScalar = false) :
    manager.Gives elsewhere (do Op.ofResult (checkName t); op) (.error .notEncodable) [] := by
  intro c asked
  apply Op.Comes.ofResult_bind
  case ok => simp [checkName_eq, surrogate]
  case error =>
    intro fault failed
    simp only [checkName_eq, surrogate, Bool.false_eq_true, if_false] at failed
    cases failed
    exact ⟨rfl, (List.append_nil asked).symm⟩

theorem gives_ofResult (r : Result Value) : manager.Gives elsewhere (Op.ofResult r) r [] :=
  fun c asked => ⟨c, asked, rfl, (List.append_nil asked).symm⟩

theorem gives_readPayload (version : SecretVersion) :
    manager.Gives elsewhere (do Op.ofResult (readPayload version (← Op.remote (.secretPayload version.name))))
      (manager.payload version.name >>= readPayload version) [.secretPayload version.name] := by
  intro c asked
  have told : (Op.remote (.secretPayload version.name)).Comes (manager.noting elsewhere) c asked
      (manager.payload version.name) fun _ asked' => asked' = asked ++ [.remote (.secretPayload version.name)] :=
    ⟨c, _, rfl, rfl⟩
  apply told.bind
  case error =>
    intro fault failed
    rw [failed]
    exact ⟨rfl, fun _ _ => id⟩
  case ok =>
    intro payload given c asked noted
    rw [given]
    exact ⟨c, asked, rfl, noted⟩

namespace Manager.Gives

theorem checked (h : manager.Gives elsewhere op r requests) (scalar : t.isScalar = true) :
    manager.Gives elsewhere (do Op.ofResult (checkName t); op) r requests := by
  intro c asked
  apply Op.Comes.ofResult_bind
  case error => simp [checkName_eq, scalar]
  case ok => exact fun _ _ => h c asked

theorem connected (h : manager.Gives elsewhere op r requests) :
    manager.Gives elsewhere (do Connections.google; op) r requests :=
  fun c asked => (comes_google c asked).bind_ok fun c' _ same => same ▸ h c' asked

theorem listed (next : List SecretVersion → Op τ Connections Value)
    (h : manager.Gives elsewhere (next manager.versions) r requests) (secret : Text) :
    manager.Gives elsewhere (do next (← Op.remote (.secretVersions secret))) r
      (.secretVersions secret :: requests) := by
  intro c asked
  have told : (Op.remote (.secretVersions secret)).Comes (manager.noting elsewhere) c asked (.ok manager.versions)
      fun _ asked' => asked' = asked ++ [.remote (.secretVersions secret)] :=
    ⟨c, _, rfl, rfl⟩
  refine told.bind_ok fun c' asked' noted => ?_
  have rest := h c' asked'
  rw [noted, List.append_assoc] at rest
  rwa [noted]

end Manager.Gives

end

-- The end of the operation, once it is known which version is to be read.
def access (version : SecretVersion) : Op τ Connections Value := do
  Op.ofResult (checkName version.name)
  Connections.google
  let payload ← Op.remote (.secretPayload version.name)
  Op.ofResult (readPayload version payload)

theorem gives_access (scalar : version.name.isScalar = true) :
    manager.Gives elsewhere (access version) (manager.payload version.name >>= readPayload version)
      [.secretPayload version.name] :=
  (gives_readPayload version).connected.checked scalar

theorem gives_secretOf (scalar : name.secret.isScalar = true)
    (rest : manager.Gives elsewhere (Op.ofResult (selectVersion name manager.versions) >>= access) r requests) :
    manager.Gives elsewhere (secretOf name) r (.secretVersions name.secret :: requests) :=
  (rest.listed (fun versions => Op.ofResult (selectVersion name versions) >>= access)
    name.secret).connected.checked scalar

theorem gives_of_fault (scalar : name.secret.isScalar = true) {fault : Fault}
    (failed : selectVersion name manager.versions = .error fault) :
    manager.Gives elsewhere (secretOf name) (.error fault) [.secretVersions name.secret] := by
  apply gives_secretOf scalar
  rw [failed]
  exact gives_ofResult (.error fault)

theorem gives_of_version (scalar : name.secret.isScalar = true)
    (chosen : selectVersion name manager.versions = .ok version)
    (rest : manager.Gives elsewhere (access version) r requests) :
    manager.Gives elsewhere (secretOf name) r (.secretVersions name.secret :: requests) := by
  apply gives_secretOf scalar
  rw [chosen]
  exact rest

-- What a secret comes to is told by the choice of a version and the replies to requests for one.
theorem exists_gives (elsewhere : (call : Call τ) → call.Reply) (name : GoogleName) (chosen : Result SecretVersion)
    (payload : Text → Result SecretPayload) : ∃ r requests, ∀ manager : Manager,
      selectVersion name manager.versions = chosen → manager.payload = payload →
        manager.Gives elsewhere (secretOf name) r requests := by
  cases scalar : name.secret.isScalar
  case false => exact ⟨_, _, fun _ _ _ => gives_of_surrogate scalar⟩
  case true =>
    cases chosen
    case error fault => exact ⟨_, _, fun _ failed _ => gives_of_fault scalar failed⟩
    case ok version =>
      cases named : version.name.isScalar
      case false => exact ⟨_, _, fun _ eq _ => gives_of_version scalar eq (gives_of_surrogate named)⟩
      case true =>
        refine ⟨payload version.name >>= readPayload version,
          [.secretVersions name.secret, .secretPayload version.name], fun manager eq told => ?_⟩
        exact gives_of_version scalar eq (told ▸ gives_access named)

theorem Manager.Gives.unique {op : Op τ Connections Value} {r' : Result Value} {requests' : List RemoteCall}
    (h : manager.Gives elsewhere op r requests) (h' : manager.Gives elsewhere op r' requests') :
    r = r' ∧ requests = requests' := by
  have ⟨_, _, reached, noted⟩ := h .none []
  have ⟨_, _, reached', noted'⟩ := h' .none []
  rw [reached] at reached'
  cases reached'
  rw [noted, List.append_cancel_left_eq] at noted'
  exact ⟨rfl, List.map_injective_iff.mpr (fun _ _ => Call.remote.inj) noted'⟩

-- The answers to be expected from a manager that numbers its versions.
inductive Manager.Answers (manager : Manager) (name : GoogleName) (numeral : SecretVersion → Text) :
    Result Value → List RemoteCall → Prop
  | unsendable (surrogate : name.secret.isScalar = false) : manager.Answers name numeral (.error .notEncodable) []
  | unreadable (scalar : name.secret.isScalar = true)
    (overlong : ∃ v ∈ manager.versions, IsOverlong name.pin (numeral v)) :
    manager.Answers name numeral (.error .unreadable) [.secretVersions name.secret]
  | inactive (scalar : name.secret.isScalar = true)
    (readable : ∀ v ∈ manager.versions, ¬IsOverlong name.pin (numeral v))
    (idle : ∀ v ∈ manager.versions, ¬Counts name.pin (numeral v)) :
    manager.Answers name numeral (.error (.noActiveVersion (.text name.secret))) [.secretVersions name.secret]
  | nameless {version : SecretVersion} (scalar : name.secret.isScalar = true)
    (readable : ∀ v ∈ manager.versions, ¬IsOverlong name.pin (numeral v))
    (latest : IsLatest SecretVersion.created (fun v => Counts name.pin (numeral v)) manager.versions version)
    (surrogate : version.name.isScalar = false) :
    manager.Answers name numeral (.error .notEncodable) [.secretVersions name.secret]
  | version {version : SecretVersion} {r : Result Value} (scalar : name.secret.isScalar = true)
    (readable : ∀ v ∈ manager.versions, ¬IsOverlong name.pin (numeral v))
    (latest : IsLatest SecretVersion.created (fun v => Counts name.pin (numeral v)) manager.versions version)
    (named : version.name.isScalar = true) (received : Received version (manager.payload version.name) r) :
    manager.Answers name numeral r [.secretVersions name.secret, .secretPayload version.name]

section

variable {text : Text} {numeral : SecretVersion → Text}

theorem Manager.Answers.gives (pinned : ∀ digits, name.pin = some digits → digits.IsDecimal)
    (numbered : ∀ v ∈ manager.versions, v.IsNumbered (numeral v)) (h : manager.Answers name numeral r requests) :
    manager.Gives elsewhere (secretOf name) r requests := by
  have chosen {v : SecretVersion} (readable : ∀ v ∈ manager.versions, ¬IsOverlong name.pin (numeral v))
      (latest : IsLatest SecretVersion.created (fun v => Counts name.pin (numeral v)) manager.versions v) :
      selectVersion name manager.versions = .ok v := by
    rw [selectVersion_of_readable numbered pinned readable, Sorting.latest?_eq_some_iff.mpr latest]
    rfl
  cases h
  case unsendable surrogate => exact gives_of_surrogate surrogate
  case unreadable scalar overlong =>
    exact gives_of_fault scalar (selectVersion_of_overlong numbered pinned overlong)
  case inactive scalar readable idle =>
    apply gives_of_fault scalar
    rw [selectVersion_of_readable numbered pinned readable, Sorting.latest?_eq_none_iff.mpr idle]
    rfl
  case nameless scalar readable latest surrogate =>
    exact gives_of_version scalar (chosen readable latest) (gives_of_surrogate surrogate)
  case version scalar readable latest named received =>
    rw [← received_iff.mp received]
    exact gives_of_version scalar (chosen readable latest) (gives_access named)

theorem Manager.exists_answers (manager : Manager) (name : GoogleName) (numeral : SecretVersion → Text) :
    ∃ r requests, manager.Answers name numeral r requests := by
  cases scalar : name.secret.isScalar
  case false => exact ⟨_, _, .unsendable scalar⟩
  case true =>
    by_cases overlong : ∃ v ∈ manager.versions, IsOverlong name.pin (numeral v)
    case pos => exact ⟨_, _, .unreadable scalar overlong⟩
    case neg =>
      have readable : ∀ v ∈ manager.versions, ¬IsOverlong name.pin (numeral v) :=
        fun v mem long => overlong ⟨v, mem, long⟩
      cases latest : Sorting.latest? SecretVersion.created (fun v => Counts name.pin (numeral v)) manager.versions
      case none => exact ⟨_, _, .inactive scalar readable (Sorting.latest?_eq_none_iff.mp latest)⟩
      case some v =>
        have latest := Sorting.latest?_eq_some_iff.mp latest
        cases named : v.name.isScalar
        case false => exact ⟨_, _, .nameless scalar readable latest named⟩
        case true => exact ⟨_, _, .version scalar readable latest named (received_iff.mpr rfl)⟩

theorem secret_eq (spells : Spells text name) : (secret text : Op τ Connections Value) = secretOf name := by
  rw [secret, spells.ofText?_eq]

-- A name is answered with the value of the latest version that counts, the only one that is read, or with the fault
-- that there is none. At different times the order in which the versions are listed does not matter.
theorem gives_of_spells (elsewhere : (call : Call τ) → call.Reply) (spells : Spells text name)
    (numbered : ∀ v ∈ manager.versions, v.IsNumbered (numeral v)) :
    (∃ r requests, manager.Gives elsewhere (secret text) r requests) ∧
    (∀ r requests, manager.Gives elsewhere (secret text) r requests ↔ manager.Answers name numeral r requests) ∧
    ∀ others, others.Perm manager.versions → (manager.versions.map SecretVersion.created).Nodup →
      ∀ r requests, { manager with versions := others }.Gives elsewhere (secret text) r requests ↔
        manager.Gives elsewhere (secret text) r requests := by
  have pinned : ∀ digits, name.pin = some digits → digits.IsDecimal := fun _ => spells.isDecimal
  rw [secret_eq spells]
  have ⟨r, requests, answers⟩ := manager.exists_answers name numeral
  have gives : manager.Gives elsewhere (secretOf name) r requests := answers.gives pinned numbered
  refine ⟨⟨r, requests, gives⟩, fun r' requests' => ⟨fun gives' => ?_, fun h => h.gives pinned numbered⟩,
    fun others perm apart r' requests' => ?_⟩
  · obtain ⟨same, all⟩ := gives.unique gives'
    exact same ▸ all ▸ answers
  · have ⟨_, _, given⟩ := exists_gives elsewhere name (selectVersion name manager.versions) manager.payload
    have here := given manager rfl rfl
    have there := given { manager with versions := others } (selectVersion_perm numbered pinned perm apart) rfl
    constructor
    case mp =>
      intro h
      obtain ⟨same, all⟩ := there.unique h
      exact same ▸ all ▸ here
    case mpr =>
      intro h
      obtain ⟨same, all⟩ := here.unique h
      exact same ▸ all ▸ there

end

def numbered (digit : Char) (created : Int) : SecretVersion :=
  ⟨Text.join ['/'] [GoogleName.parent "p" "s", "versions", [CodePoint.ofChar digit]], created⟩

def lastDigit (version : SecretVersion) : Text :=
  version.name.getLast?.toList

-- Two versions created at the same time, and one that is created later.
def demo : Manager where
  credentials := []
  versions := [numbered '4' 12, numbered '2' 9, numbered '1' 9]
  payload _ := .ok ⟨[118], 0⟩

theorem isNumbered_demo : ∀ v ∈ demo.versions, v.IsNumbered (lastDigit v) := by
  simp only [demo, List.forall_mem_cons]
  refine ⟨?_, ?_, ?_, List.forall_mem_nil _⟩
  all_goals
    exact ⟨⟨Text.join ['/'] [GoogleName.parent "p" "s", "versions"], rfl⟩, List.cons_ne_nil _ _,
      List.forall_mem_singleton.mpr (by decide)⟩

def silent : (call : Call Int) → call.Reply
  | .cluster _ => .error default
  | .remote _ => .error default
  | .now => 0
  | .wait _ => ()

def pinnedTo (digits : Text) : GoogleName :=
  ⟨GoogleName.parent "p" "s", some digits⟩

theorem spells_pinnedTo {digits : Text} (decimal : digits.IsDecimal) :
    Spells (Text.join ['/'] [GoogleName.parent "p" "s", "versions", digits]) (pinnedTo digits) :=
  .version ⟨by decide, by decide⟩ ⟨by decide, by decide⟩ (.pinned decimal)

-- More digits than are read.
def padded : Text :=
  List.replicate maxDigits (CodePoint.ofChar '0') ++ [CodePoint.ofChar '3']

theorem isDecimal_padded : padded.IsDecimal := by
  refine ⟨List.append_ne_nil_of_right_ne_nil _ (List.cons_ne_nil _ _), fun c mem => ?_⟩
  rcases List.mem_append.mp mem with zero | last
  case inl => rw [List.eq_of_mem_replicate zero]; decide
  case inr => rw [List.mem_singleton.mp last]; decide

-- Pinned to the third version, the secret is that of the second one, which is listed before the first one. The same
-- number with many zeros before it is not read.
theorem gives_of_spells_demo :
    demo.Gives silent (secret (Text.join ['/'] [GoogleName.parent "p" "s", "versions", "3"])) (.ok (.text "v"))
      [.secretVersions (GoogleName.parent "p" "s"), .secretPayload (numbered '2' 9).name] ∧
    demo.Gives silent (secret (Text.join ['/'] [GoogleName.parent "p" "s", "versions", padded])) (.error .unreadable)
      [.secretVersions (GoogleName.parent "p" "s")] := by
  constructor
  · have short : Text.IsDecimal "3" := ⟨List.cons_ne_nil _ _, List.forall_mem_singleton.mpr (by decide)⟩
    have readable : ∀ v ∈ demo.versions, ¬IsOverlong (pinnedTo "3").pin (lastDigit v) := by
      rintro v mem ⟨digits, eq, long⟩
      cases eq
      simp only [demo, List.mem_cons, List.not_mem_nil, or_false] at mem
      rcases mem with same | same | same
      all_goals
        subst same
        exact absurd long (by decide)
    have latest : IsLatest SecretVersion.created (fun v => Counts (pinnedTo "3").pin (lastDigit v)) demo.versions
        (numbered '2' 9) := by
      refine ⟨by decide, [numbered '4' 12], [numbered '1' 9], rfl, ?_, ?_⟩
      · exact List.forall_mem_singleton.mpr fun counts => absurd counts (by decide)
      · exact List.forall_mem_singleton.mpr fun _ => by decide
    have received : Received (numbered '2' 9) (.ok ⟨[118], 0⟩) (.ok (.text "v")) := .text (.inl rfl) (by decide)
    exact ((gives_of_spells silent (spells_pinnedTo short) isNumbered_demo).right.left _ _).mpr
      (.version (by decide) readable latest (by decide) received)
  · have overlong : IsOverlong (pinnedTo padded).pin (lastDigit (numbered '4' 12)) :=
      ⟨padded, rfl, .inl (by simp [padded])⟩
    exact ((gives_of_spells silent (spells_pinnedTo isDecimal_padded) isNumbered_demo).right.left _ _).mpr
      (.unreadable (by decide) ⟨_, List.mem_cons_self, overlong⟩)

end SecretSync.Google
