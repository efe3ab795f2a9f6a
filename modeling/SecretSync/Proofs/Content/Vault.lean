import SecretSync.Content.Resolution
import SecretSync.Proofs.Content.Extraction

/-!
What a field with a path takes from a Vault secret. A secret with a member "value" stands for that member, whatever
else it has. From any other one the path starts at the top, and what it does not pass does not matter. Main statement:
`Field.entriesOf_vault_of_path`.
-/

namespace SecretSync

open Text (IsJoined)

variable {field : Field} {key : Key} {path name first : Text} {rest parts : List Text} {members : List (Text × Value)}
  {v w : Value}

theorem Path.leads_object_iff (distinct : Table.Distinct members) :
    Leads (first :: rest) (.object members) w ↔ ∃ v, Table.get? first members = some v ∧ Leads rest v w := by
  constructor
  case mp =>
    intro leads
    cases leads
    case member v mem rest => exact ⟨v, Table.get?_of_mem distinct mem, rest⟩
  case mpr =>
    intro h
    obtain ⟨v, found, rest⟩ := h
    obtain ⟨k, mem, same⟩ := Table.exists_mem_of_get? found
    exact .member (eq_of_beq same ▸ mem) rest

theorem Path.leads_remove_iff (distinct : Table.Distinct members) (apart : name ≠ first) :
    Leads (first :: rest) (.object (Table.remove name members)) w ↔ Leads (first :: rest) (.object members) w := by
  rw [leads_object_iff distinct, leads_object_iff (distinct.remove name),
    Table.get?_remove_of_ne (beq_eq_false_iff_ne.mpr apart)]

theorem Value.IsJson.remove {Kind : Text → Prop} (json : (Value.object members).IsJson Kind) (name : Text) :
    (Value.object (Table.remove name members)).IsJson Kind := by
  cases json
  case object distinct names each =>
    exact .object (distinct.remove name) (fun member mem => names member (Table.mem_of_mem_remove mem))
      fun member mem => each member (Table.mem_of_mem_remove mem)

namespace Field

-- The name of the member that a secret with a single value has.
def single : Text := "value"

theorem secretText_of_single (given : field.key.isGiven = true) (json : (Value.object members).IsJson IsJoined)
    (found : Table.get? single members = some v) : field.secretText (.value (.object members)) = .ok v.written := by
  have inner : v.IsJson IsJoined := by
    cases json
    case object each =>
      have ⟨_, mem, _⟩ := Table.exists_mem_of_get? found
      exact each _ mem
  have there : Fetched.hasOutput singleValue (.value (.object members)) = .ok true := by
    change Except.ok (Table.has single members) = _
    rw [Table.has, found]
    rfl
  have output : Fetched.output singleValue (.value (.object members)) = .ok v := by
    change Result.ofOption _ (Table.get? single members) = _
    rw [found]
    rfl
  simp only [secretText, given, if_true, there, output, bind, Except.bind, inner.toText_eq]

theorem secretText_of_plain (given : field.key.isGiven = true) (json : (Value.object members).IsJson IsJoined)
    (absent : Table.get? single members = none) :
    field.secretText (.value (.object members)) = .ok (Json.render (.object members)) := by
  have there : Fetched.hasOutput singleValue (.value (.object members)) = .ok false := by
    change Except.ok (Table.has single members) = _
    rw [Table.has, absent]
    rfl
  simp only [secretText, given, if_true, there, bind, Except.bind]
  exact json.print_eq

theorem entriesOf_vault {fetched : Fetched} {t : Text} (h : field.secretText fetched = .ok t) :
    field.entriesOf .vault fetched = field.entries (.text t) true := by
  rw [entriesOf, h]
  rfl

theorem entriesOf_vault_of_single (given : field.key.isGiven = true) (json : (Value.object members).IsJson IsJoined)
    (found : Table.get? single members = some v) :
    field.entriesOf .vault (.value (.object members)) = field.entries (.text v.written) true :=
  entriesOf_vault (secretText_of_single given json found)

-- Nothing is lost in the JSON text that the path is walked in.
theorem Takes.entriesOf_vault_of_leads (takes : field.Takes key path parts)
    (json : (Value.object members).IsJson IsJoined) (shallow : (Value.object members).depth ≤ Json.maxDepth)
    (absent : Table.get? single members = none) (leads : Path.Leads parts (.object members) w) :
    field.entriesOf .vault (.value (.object members)) = entryOf key w := by
  rw [entriesOf_vault (secretText_of_plain takes.given json absent)]
  exact takes.entries_of_leads (Json.parse_render_of_shallow json shallow) leads true

theorem Takes.entriesOf_vault_of_nowhere (takes : field.Takes key path parts)
    (json : (Value.object members).IsJson IsJoined) (shallow : (Value.object members).depth ≤ Json.maxDepth)
    (absent : Table.get? single members = none) (nowhere : ∀ w, ¬Path.Leads parts (.object members) w) :
    field.entriesOf .vault (.value (.object members)) = .ok [] := by
  rw [entriesOf_vault (secretText_of_plain takes.given json absent)]
  exact takes.entries_of_nowhere (Json.parse_render_of_shallow json shallow) nowhere true

theorem Takes.entriesOf_vault_remove (takes : field.Takes key path (first :: rest))
    (json : (Value.object members).IsJson IsJoined) (shallow : (Value.object members).depth ≤ Json.maxDepth)
    (apart : name ≠ first) (plain : name ≠ single) :
    field.entriesOf .vault (.value (.object (Table.remove name members))) =
      field.entriesOf .vault (.value (.object members)) := by
  have json' := json.remove name
  have shallow' : (Value.object (Table.remove name members)).depth ≤ Json.maxDepth :=
    Nat.le_trans (Value.depth_object_le_of_subset fun _ => Table.mem_of_mem_remove) shallow
  have kept : Table.get? single (Table.remove name members) = Table.get? single members :=
    Table.get?_remove_of_ne (beq_eq_false_iff_ne.mpr plain)
  cases found : Table.get? single members
  case some v =>
    rw [entriesOf_vault_of_single takes.given json found,
      entriesOf_vault_of_single takes.given json' (kept.trans found)]
  case none =>
    have distinct : Table.Distinct members := by
      cases json
      assumption
    have same (w : Value) : Path.Leads (first :: rest) (.object (Table.remove name members)) w ↔
        Path.Leads (first :: rest) (.object members) w :=
      Path.leads_remove_iff distinct apart
    by_cases nowhere : ∀ w, ¬Path.Leads (first :: rest) (.object members) w
    case pos =>
      rw [takes.entriesOf_vault_of_nowhere json shallow found nowhere,
        takes.entriesOf_vault_of_nowhere json' shallow' (kept.trans found) fun w leads =>
          nowhere w ((same w).mp leads)]
    case neg =>
      simp only [not_forall, not_not] at nowhere
      obtain ⟨w, leads⟩ := nowhere
      rw [takes.entriesOf_vault_of_leads json shallow found leads,
        takes.entriesOf_vault_of_leads json' shallow' (kept.trans found) ((same w).mpr leads)]

-- Of a secret that was read, a member that the path does not begin with does not matter, unless it is the one that
-- stands for the whole. Without that one the path starts at the top of the secret. With it the path starts in the
-- JSON text that it is, and the other members are out of reach.
theorem entriesOf_vault_of_path {t : Text} (takes : field.Takes key path (first :: rest)) (scalar : t.isScalar = true)
    (read : Json.parse t = .ok (.object members)) :
    (∀ name, name ≠ first → name ≠ single →
      field.entriesOf .vault (.value (.object (Table.remove name members))) =
        field.entriesOf .vault (.value (.object members))) ∧
    ((∀ member ∈ members, member.1 ≠ single) →
      (∀ w, Path.Leads (first :: rest) (.object members) w →
        field.entriesOf .vault (.value (.object members)) = entryOf key w) ∧
      ((∀ w, ¬Path.Leads (first :: rest) (.object members) w) →
        field.entriesOf .vault (.value (.object members)) = .ok [])) ∧
    (∀ v, (single, v) ∈ members →
      (∀ document w, Json.parse v.written = .ok document → Path.Leads (first :: rest) document w →
        field.entriesOf .vault (.value (.object members)) = entryOf key w) ∧
      (∀ document, Json.parse v.written = .ok document → (∀ w, ¬Path.Leads (first :: rest) document w) →
        field.entriesOf .vault (.value (.object members)) = .ok []) ∧
      (∀ fault, Json.parse v.written = .error fault → fault ≠ .nestedTooDeeply →
        field.entriesOf .vault (.value (.object members)) = .ok []) ∧
      (Json.parse v.written = .error .nestedTooDeeply →
        field.entriesOf .vault (.value (.object members)) = .error .nestedTooDeeply)) := by
  have json := Json.isJoined_of_parse scalar read
  have shallow := Json.depth_le_of_parse read
  refine ⟨fun name => takes.entriesOf_vault_remove json shallow, fun plain => ?top, fun v mem => ?single⟩
  case top =>
    have absent : Table.get? single members = none :=
      Table.get?_eq_none_iff.mpr fun member mem => beq_eq_false_iff_ne.mpr (plain member mem)
    exact ⟨fun w => takes.entriesOf_vault_of_leads json shallow absent,
      takes.entriesOf_vault_of_nowhere json shallow absent⟩
  case single =>
    have found : Table.get? single members = some v := by
      cases json
      case object distinct _ _ => exact Table.get?_of_mem distinct mem
    rw [entriesOf_vault_of_single takes.given json found]
    exact ⟨fun _ _ parsed leads => takes.entries_of_leads parsed leads true,
      fun _ parsed nowhere => takes.entries_of_nowhere parsed nowhere true,
      fun _ failed other => takes.entries_of_malformed failed other true,
      fun failed => takes.entries_of_deep failed true⟩

def account : List (Text × Value) :=
  [("user", "admin")]

-- The same with a member that happens to be called "value".
def shadowed : List (Text × Value) :=
  (single, "x") :: account

theorem isJoined_shadowed : (Value.object shadowed).IsJson IsJoined := by
  refine .object ⟨by decide, rfl, trivial⟩ (by decide) ?_
  exact List.forall_mem_cons.mpr ⟨.text (by decide), List.forall_mem_singleton.mpr (.text (by decide))⟩

-- The path leads to the user, but not beside a member "value".
theorem entriesOf_vault_of_path_shadowed :
    (taking "user" "user").entriesOf .vault (.value (.object account)) =
      .ok [(.text "user", .bytes [97, 100, 109, 105, 110])] ∧
    (taking "user" "user").entriesOf .vault (.value (.object shadowed)) = .ok [] := by
  have takes : (taking "user" "user").Takes (.text "user") "user" ["user"] :=
    ⟨rfl, rfl, rfl, rfl, by decide, by decide, by decide, by decide⟩
  constructor
  · have json : (Value.object account).IsJson IsJoined := isJoined_shadowed.remove single
    have read := Json.parse_render_of_shallow json (by decide)
    have ⟨_, top, _⟩ := entriesOf_vault_of_path takes (Json.isAscii_render json).isScalar read
    exact (top (by decide)).left _ (.member List.mem_cons_self (.here _))
  · have read := Json.parse_render_of_shallow isJoined_shadowed (by decide)
    have ⟨_, _, alone⟩ := entriesOf_vault_of_path takes (Json.isAscii_render isJoined_shadowed).isScalar read
    exact (alone "x" List.mem_cons_self).right.right.left .malformedJson rfl nofun

end Field

end SecretSync
