import SecretSync.Proofs.Remote.Requests
import SecretSync.Proofs.Remote.Versions
import SecretSync.Proofs.Settings

/-!
Where the secret of a name is looked up. A text that is an address at Google is looked up there; every other text is
the name of a secret held by AWS, however close to an address it comes. Main statement: `Lookup.secret_routed`.
-/

namespace SecretSync

open GoogleName (Address)

variable {τ κ σ α β : Type}

namespace World

-- The name that a request carries needs a UTF-8 form. Without one nothing is sent, and no connection is made for it.
inductive AsksNamed (w : World τ κ) (name : Text) (request : RemoteCall) (read : request.Answer → Result α) :
    Result α → World τ κ → Prop
  | unsendable (surrogate : name.isScalar = false) : AsksNamed w name request read (.error .notEncodable) w
  | sent {r : Result α} {w' : World τ κ} (scalar : name.isScalar = true) (asks : w.Asks .google request read r w') :
    AsksNamed w name request read r w'

-- The versions of a secret are listed, and the one that is selected for the name, if any, is read.
inductive AsksGoogle (w : World τ κ) (name : GoogleName) : Result Value → World τ κ → Prop
  | unlisted {fault : Fault} {w' : World τ κ}
    (listed : w.AsksNamed name.secret (.secretVersions name.secret) (Google.selectVersion name) (.error fault) w') :
    AsksGoogle w name (.error fault) w'
  | selected {version : SecretVersion} {r : Result Value} {v w' : World τ κ}
    (listed : w.AsksNamed name.secret (.secretVersions name.secret) (Google.selectVersion name) (.ok version) v)
    (read : v.AsksNamed version.name (.secretPayload version.name) (Google.readPayload version) r w') :
    AsksGoogle w name r w'

end World

namespace Google

variable {api : Api κ} {c c' : Connections} {w w' : World τ κ}

theorem asks_named {t : Text} {request : RemoteCall} {read : request.Answer → Result α} {r : Result α}
    (run : (do
      Op.ofResult (checkName t)
      Connections.google
      Op.ofResult (read (← Op.remote request)) : Op τ Connections α).Run api c w r c' w') :
    w.AsksNamed t request read r w' := by
  rw [checkName_eq] at run
  cases scalar : t.isScalar
  all_goals rcases run.bind_cases with ⟨_, _, _, checked, rest⟩ | ⟨_, rfl, checked⟩
  all_goals
    obtain ⟨same, rfl, rfl⟩ := checked.eq_of_ofResult
    rw [scalar] at same
  case false.inl => cases same
  case true.inr => cases same
  case false.inr =>
    cases same
    exact .unsendable scalar
  case true.inl => exact .sent scalar (Op.asks_of_run Connections.google_connects rest)

-- The version of a secret that is to be read.
def selected (name : GoogleName) : Op τ Connections SecretVersion := do
  Op.ofResult (checkName name.secret)
  Connections.google
  Op.ofResult (selectVersion name (← Op.remote (.secretVersions name.secret)))

theorem secretOf_eq (name : GoogleName) : (secretOf name : Op τ Connections Value) = selected name >>= access := by
  simp only [secretOf, selected, bind_assoc]
  rfl

theorem asks_secretOf {name : GoogleName} {r : Result Value} (run : (secretOf name).Run api c w r c' w') :
    w.AsksGoogle name r w' := by
  rw [secretOf_eq] at run
  rcases run.bind_cases with ⟨version, _, _, selected, rest⟩ | ⟨fault, rfl, failed⟩
  case inr => exact .unlisted (asks_named failed)
  case inl => exact .selected (asks_named selected) (asks_named rest)

end Google

namespace Lookup

variable {settings : Settings τ} {t : Text} {api : Api κ} {c c' : Connections} {w w' : World τ κ} {r : Result Fetched}

theorem fetch_secret_of_writes {a : Address} (writes : a.Writes t) :
    (Lookup.secret t).fetch settings = (do pure (.value (← Google.secretOf a.googleName))) := by
  have read := writes.spells.ofText?_eq
  rw [fetch, if_pos (by rw [read]; rfl), Google.secret_eq writes.spells]

theorem fetch_secret_of_forall_not_writes (unwritten : ∀ a : Address, ¬a.Writes t) :
    (Lookup.secret t).fetch settings = (do pure (.value (← Aws.secret settings (.text t)))) := by
  rw [fetch, if_neg]
  intro read
  have ⟨a, writes⟩ := Address.exists_writes read
  exact unwritten a writes

-- There is an address in the name of a secret, and only one, if Google is asked for it, and none if AWS is asked.
theorem secret_routed (run : ((Lookup.secret t).fetch settings).Run api c w r c' w') :
    ∃ answer : Result Value, r = answer.map .value ∧
      ((∃ a : Address, a.Writes t ∧ (∀ b : Address, b.Writes t → b = a) ∧
          GoogleName.ofText? t = some a.googleName ∧ w.AsksGoogle a.googleName answer w') ∨
        (∀ a : Address, ¬a.Writes t) ∧
          w.Asks (.aws .secretsManager) (.secretValue (.text t)) (Aws.readSecret (.text t)) answer w') := by
  by_cases written : ∃ a : Address, a.Writes t
  case pos =>
    obtain ⟨a, writes⟩ := written
    rw [fetch_secret_of_writes writes] at run
    have ⟨answer, eq, run⟩ := run.of_map
    exact ⟨answer, eq, .inl ⟨a, writes, fun _ writes' => writes'.unique writes, writes.spells.ofText?_eq,
      Google.asks_secretOf run⟩⟩
  case neg =>
    have unwritten := not_exists.mp written
    rw [fetch_secret_of_forall_not_writes unwritten] at run
    have ⟨answer, eq, run⟩ := run.of_map
    exact ⟨answer, eq, .inr ⟨unwritten, Op.asks_of_run (Connections.aws_connects settings .secretsManager) run⟩⟩

-- The third version of a secret, before a line end.
def pinnedLine : Text :=
  Text.join ['/'] [GoogleName.parent "p" "s", "versions", Text.ofString "3" ++ [CodePoint.ofChar '\n']]

-- The same with a digit of another script.
def pinnedElsewhere : Text :=
  Text.join ['/'] [GoogleName.parent "p" "s", "versions", "٣"]

theorem writes_pinnedLine : Address.Writes ⟨"p", "s", some "3"⟩ pinnedLine :=
  have decimal : Text.IsDecimal "3" := ⟨List.cons_ne_nil _ _, List.forall_mem_singleton.mpr (by decide)⟩
  .line ⟨by decide, by decide⟩ ⟨by decide, by decide⟩ (.pinned decimal)

theorem not_writes_pinnedElsewhere (a : Address) : ¬a.Writes pinnedElsewhere := by
  intro writes
  have unread : GoogleName.ofText? pinnedElsewhere = none := by decide
  cases unread.symm.trans writes.spells.ofText?_eq

-- AWS has a secret under every name.
def beside : (call : Call Int) → call.Reply
  | .remote .awsSession => .ok ()
  | .remote (.awsClient _ _ _) => .ok ()
  | .remote (.secretValue _) => .ok (.object [("SecretString", .text "a")])
  | call => Google.silent call

theorem run_pinnedLine (w : World Int Unit) : ∃ c' w', ((Lookup.secret pinnedLine).fetch Settings.inSeconds).Run .any
    .none w (.ok (.value (.text "v"))) c' w' := by
  have chosen : Google.selectVersion (Google.pinnedTo "3") Google.demo.versions = .ok (Google.numbered '2' 9) := by
    rfl
  have gives : Google.demo.Gives beside (Google.secretOf (Google.pinnedTo "3")) (.ok (.text "v")) _ :=
    Google.gives_of_version (by decide) chosen (Google.gives_access (by decide))
  have ⟨c', _, eq, _⟩ := gives .none []
  have ⟨w', run⟩ := Op.exists_run _ w eq
  rw [fetch_secret_of_writes writes_pinnedLine]
  exact ⟨c', w', run.bind (.pure _)⟩

theorem run_pinnedElsewhere (w : World Int Unit) : ∃ c' w',
    ((Lookup.secret pinnedElsewhere).fetch Settings.inSeconds).Run .any .none w (.ok (.value (.text "a"))) c' w' := by
  have ⟨c', _, eq⟩ : ∃ c' asked, (Aws.secret Settings.inSeconds (.text pinnedElsewhere)).answered
      (Google.demo.noting beside) .none [] = ((.ok (.text "a"), c'), asked) :=
    ⟨_, _, rfl⟩
  have ⟨w', run⟩ := Op.exists_run _ w eq
  rw [fetch_secret_of_forall_not_writes not_writes_pinnedElsewhere]
  exact ⟨c', w', run.bind (.pure _)⟩

-- Only one of the digits makes it an address.
theorem secret_routed_digits :
    (∃ c' w', ((Lookup.secret pinnedLine).fetch Settings.inSeconds).Run .any .none (⟨(), []⟩ : World Int Unit)
        (.ok (.value (.text "v"))) c' w' ∧
      World.AsksGoogle ⟨(), []⟩ (Google.pinnedTo "3") (.ok (.text "v")) w') ∧
    ∃ c' w', ((Lookup.secret pinnedElsewhere).fetch Settings.inSeconds).Run .any .none (⟨(), []⟩ : World Int Unit)
        (.ok (.value (.text "a"))) c' w' ∧
      World.Asks ⟨(), []⟩ (.aws .secretsManager) (.secretValue (.text pinnedElsewhere))
        (Aws.readSecret (.text pinnedElsewhere)) (.ok (.text "a")) w' := by
  constructor
  · have ⟨c', w', run⟩ := run_pinnedLine ⟨(), []⟩
    obtain ⟨answer, same, ⟨a, writes, unique, _, asks⟩ | ⟨unwritten, _⟩⟩ := secret_routed run
    case inr => exact absurd writes_pinnedLine (unwritten _)
    case inl =>
      cases Fetched.eq_of_map same.symm
      cases unique _ writes_pinnedLine
      exact ⟨c', w', run, asks⟩
  · have ⟨c', w', run⟩ := run_pinnedElsewhere ⟨(), []⟩
    obtain ⟨answer, same, ⟨a, writes, _⟩ | ⟨_, asks⟩⟩ := secret_routed run
    case inl => exact absurd writes (not_writes_pinnedElsewhere a)
    case inr =>
      cases Fetched.eq_of_map same.symm
      exact ⟨c', w', run, asks⟩

end Lookup
end SecretSync
