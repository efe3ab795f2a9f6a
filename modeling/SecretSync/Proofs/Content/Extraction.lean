import SecretSync.Content.Entries
import SecretSync.Proofs.Content.Written
import SecretSync.Proofs.Json.Parsed
import SecretSync.Proofs.Path

/-!
What a field takes from JSON text by a path. Main statements: `textWithin_of_text`, `Field.entries_of_text`.
-/

namespace SecretSync

open Text (IsSplit)

namespace Path

variable {path : Text} {parts : List Text} {v w : Value} {Kind : Text → Prop}

theorem textAt_of_leads (split : IsSplit '.' path parts) (json : v.IsJson Kind) (leads : Leads parts v w) :
    textAt path v = .ok w.written := by
  have segments : segments path = parts := Text.isSplit_iff.mp split
  rw [textAt, segments, (walk_eq_some_iff json).mpr leads]
  exact (leads.isJson json).toText_eq

theorem textAt_of_misreads (split : IsSplit '.' path parts) (json : v.IsJson Kind) (misreads : Misreads parts v) :
    textAt path v = .error .unreadable := by
  have segments : segments path = parts := Text.isSplit_iff.mp split
  rw [textAt, segments, (walk_eq_error_iff json).mpr ⟨rfl, misreads⟩]
  rfl

theorem textAt_of_neither (split : IsSplit '.' path parts) (nowhere : ∀ w, ¬Leads parts v w)
    (readable : ¬Misreads parts v) : textAt path v = .ok [] := by
  have segments : segments path = parts := Text.isSplit_iff.mp split
  rw [textAt, segments]
  cases walked : walk parts v
  case error fault => exact absurd (misreads_of_walk walked).right readable
  case ok reached =>
    cases reached
    case none => rfl
    case some w => exact absurd (leads_of_walk walked) (nowhere w)

theorem textAt_eq_error_iff (split : IsSplit '.' path parts) (json : v.IsJson Kind) {fault : Fault} :
    textAt path v = .error fault ↔ fault = .unreadable ∧ Misreads parts v := by
  constructor
  case mpr =>
    intro h
    rw [h.left]
    exact textAt_of_misreads split json h.right
  case mp =>
    intro failed
    by_cases misreads : Misreads parts v
    case pos =>
      rw [textAt_of_misreads split json misreads] at failed
      cases failed
      exact ⟨rfl, misreads⟩
    case neg =>
      by_cases nowhere : ∀ w, ¬Leads parts v w
      case pos =>
        rw [textAt_of_neither split nowhere misreads] at failed
        cases failed
      case neg =>
        simp only [not_forall, not_not] at nowhere
        obtain ⟨w, leads⟩ := nowhere
        rw [textAt_of_leads split json leads] at failed
        cases failed

end Path

variable {t path : Text} {parts : List Text} {document w : Value}

theorem textWithin_of_parse (parsed : Json.parse t = .ok document) (path : Text) :
    textWithin (.text t) (.text path) = Path.textAt path document := by
  rw [textWithin, Json.parseValue, parsed]
  rfl

theorem textWithin_of_malformed {fault : Fault} (failed : Json.parse t = .error fault) (path : Value) :
    textWithin (.text t) path = .error fault := by
  rw [textWithin, Json.parseValue, failed]
  rfl

-- A path in a document leads to a text, the empty one if it leads nowhere, unless it meets a list at digits that are
-- no numeral. Text that is no document is a fault, and text with too many brackets may be one of its own.
theorem textWithin_of_text (t path : Text) {parts : List Text} (split : IsSplit '.' path parts) :
    (∀ fault, Json.parse t = .error fault →
      textWithin (.text t) (.text path) = .error fault ∧
        (fault.isUnreadableValue = true ∨ (fault = .nestedTooDeeply ∧ Json.maxDepth < Json.openings t))) ∧
    (∀ document, Json.parse t = .ok document →
      (∀ w, Path.Leads parts document w → textWithin (.text t) (.text path) = .ok w.written) ∧
      (∀ fault, textWithin (.text t) (.text path) = .error fault ↔
        fault = .unreadable ∧ Path.Misreads parts document) ∧
      ((∀ w, ¬Path.Leads parts document w) → ¬Path.Misreads parts document →
        textWithin (.text t) (.text path) = .ok [])) := by
  refine ⟨fun fault failed => ⟨textWithin_of_malformed failed _, Json.parse_failsOnly t fault failed⟩,
    fun document parsed => ?_⟩
  have json := Json.isJson_of_parse parsed
  rw [textWithin_of_parse parsed]
  exact ⟨fun w => Path.textAt_of_leads split json, fun fault => Path.textAt_eq_error_iff split json,
    Path.textAt_of_neither split⟩

theorem parse_list_one : Json.parse "[1]" = .ok (.list [.int 1]) := by
  have written : Text.ofString "[1]" = Json.render (.list [.int 1]) := by decide
  rw [written]
  refine Json.parse_render_of_shallow (.list fun v mem => ?_) (by decide)
  cases List.mem_singleton.mp mem
  exact .int (by decide)

-- The number 1 in a list, by its index. A superscript two is a digit but no numeral.
theorem textWithin_of_text_superscript :
    textWithin (.text "[1]") (.text "0") = .ok "1" ∧
    textWithin (.text "[1]") (.text ['²']) = .error .unreadable := by
  constructor
  · have split : IsSplit '.' (Text.ofString "0") ["0"] := ⟨by decide, by decide, rfl⟩
    have number : Path.IsNumber "0" 0 := ⟨by decide, by decide, [0], by decide, by decide⟩
    exact ((textWithin_of_text "[1]" "0" split).right _ parse_list_one).left _ (.element number rfl (.here _))
  · have split : IsSplit '.' [CodePoint.ofChar '²'] [['²']] := ⟨by decide, by decide, rfl⟩
    have unreadable : Path.IsUnreadable ['²'] :=
      ⟨by decide, List.forall_mem_singleton.mpr (by decide), .inl ⟨'²', by decide, by decide⟩⟩
    exact (((textWithin_of_text "[1]" ['²'] split).right _ parse_list_one).right.left _).mpr ⟨rfl, .here unreadable⟩

namespace Field

variable {field : Field} {key : Key} {canExpand : Bool}

-- The entry of the value that a path leads to: its text or JSON text in UTF-8. Null and the empty text make none.
def entryOf (key : Key) : Value → Result Content
  | .null => .ok []
  | .text t =>
    if t.isEmpty then .ok []
    else if t.isScalar then .ok [(key, .bytes (t.flatMap CodePoint.utf8))]
    else .error .notEncodable
  | v => .ok [(key, .bytes ((Json.render v).flatMap CodePoint.utf8))]

-- The entry of a text.
def entryOfText (key : Key) (t : Text) : Result Content :=
  if t.isEmpty then .ok []
  else if t.isScalar then .ok [(key, .bytes (t.flatMap CodePoint.utf8))]
  else .error .notEncodable

theorem entryOfText_written {Kind : Text → Prop} (json : w.IsJson Kind) (key : Key) :
    entryOfText key w.written = entryOf key w := by
  have full := json.written_ne_nil
  have solid := json.isScalar_written
  rw [entryOfText]
  cases json
  case null => rfl
  case text => rfl
  all_goals
    rw [if_neg (by simpa using full nofun nofun), if_pos (solid nofun)]
    rfl

theorem entryOf_eq_error_iff {fault : Fault} :
    entryOf key w = .error fault ↔ fault = .notEncodable ∧ ∃ lone, w = .text lone ∧ lone.isScalar = false := by
  constructor
  case mp =>
    intro failed
    cases w
    case text t =>
      rw [entryOf] at failed
      split at failed
      case isTrue => cases failed
      case isFalse =>
        split at failed
        case isTrue => cases failed
        case isFalse surrogate =>
          cases failed
          exact ⟨rfl, t, rfl, by simpa using surrogate⟩
    all_goals cases failed
  case mpr =>
    intro h
    obtain ⟨eq, lone, text, surrogate⟩ := h
    have nonempty : ¬lone.isEmpty = true := by
      intro empty
      rw [List.isEmpty_iff.mp empty] at surrogate
      cases surrogate
    rw [eq, text, entryOf, if_neg nonempty, if_neg (by simp [surrogate])]

-- A field that makes an entry of what the segments of a path lead to.
structure Takes (field : Field) (key : Key) (path : Text) (parts : List Text) : Prop where
  given    : field.key.isGiven = true
  named    : field.key.key? = some key
  json     : field.isJson = true
  walked   : field.remotePath = .text path
  nonempty : path ≠ []
  split    : IsSplit '.' path parts

namespace Takes

theorem entries_eq (takes : field.Takes key path parts) (t : Text) (canExpand : Bool) :
    field.entries (.text t) canExpand =
      ((textWithin (.text t) (.text path)).recover [] >>= entryOfText key) := by
  have part : (field.isJson && field.remotePath.isGiven) = true := by
    simp [takes.json, takes.walked, Value.isGiven, takes.nonempty]
  have single (payload : Bytes) : Content.single field.key payload = .ok [(key, .bytes payload)] := by
    rw [Content.single, Value.asKey, takes.named]
    rfl
  rw [entries, if_pos takes.given, if_pos part, takes.walked]
  refine bind_congr fun s => ?_
  simp only [entryOfText, single]
  split
  case isTrue => rfl
  case isFalse =>
    rw [Value.encodeText, Text.utf8?]
    split
    all_goals rfl

theorem entries_of_leads (takes : field.Takes key path parts) (parsed : Json.parse t = .ok document)
    (leads : Path.Leads parts document w) (canExpand : Bool) :
    field.entries (.text t) canExpand = entryOf key w := by
  have json := Json.isJson_of_parse parsed
  rw [takes.entries_eq, textWithin_of_parse parsed, Path.textAt_of_leads takes.split json leads]
  exact entryOfText_written (leads.isJson json) key

theorem entries_of_nowhere (takes : field.Takes key path parts) (parsed : Json.parse t = .ok document)
    (nowhere : ∀ w, ¬Path.Leads parts document w) (canExpand : Bool) :
    field.entries (.text t) canExpand = .ok [] := by
  rw [takes.entries_eq, textWithin_of_parse parsed]
  by_cases misreads : Path.Misreads parts document
  case pos =>
    rw [Path.textAt_of_misreads takes.split (Json.isJson_of_parse parsed) misreads]
    rfl
  case neg =>
    rw [Path.textAt_of_neither takes.split nowhere misreads]
    rfl

theorem entries_of_malformed (takes : field.Takes key path parts) {fault : Fault}
    (failed : Json.parse t = .error fault) (other : fault ≠ .nestedTooDeeply) (canExpand : Bool) :
    field.entries (.text t) canExpand = .ok [] := by
  have unreadable : fault.isUnreadableValue = true :=
    (Json.parse_failsOnly t fault failed).resolve_right fun deep => other deep.left
  rw [takes.entries_eq, textWithin_of_malformed failed, Result.recover, if_pos unreadable]
  rfl

-- The fault of brackets that are nested too deeply is none that the field recovers from.
theorem entries_of_deep (takes : field.Takes key path parts) (failed : Json.parse t = .error .nestedTooDeeply)
    (canExpand : Bool) : field.entries (.text t) canExpand = .error .nestedTooDeeply := by
  rw [takes.entries_eq, textWithin_of_malformed failed]
  rfl

theorem entries_eq_error_iff (takes : field.Takes key path parts) (t : Text) (canExpand : Bool) {fault : Fault} :
    field.entries (.text t) canExpand = .error fault ↔
      (fault = .notEncodable ∧ ∃ document lone, Json.parse t = .ok document ∧
        Path.Leads parts document (.text lone) ∧ lone.isScalar = false) ∨
      (fault = .nestedTooDeeply ∧ Json.parse t = .error .nestedTooDeeply) := by
  constructor
  case mp =>
    intro failed
    cases parsed : Json.parse t
    case error other =>
      by_cases deep : other = .nestedTooDeeply
      case pos =>
        subst deep
        rw [takes.entries_of_deep parsed] at failed
        cases failed
        exact .inr ⟨rfl, rfl⟩
      case neg =>
        rw [takes.entries_of_malformed parsed deep] at failed
        cases failed
    case ok document =>
      by_cases nowhere : ∀ w, ¬Path.Leads parts document w
      case pos =>
        rw [takes.entries_of_nowhere parsed nowhere] at failed
        cases failed
      case neg =>
        simp only [not_forall, not_not] at nowhere
        obtain ⟨w, leads⟩ := nowhere
        rw [takes.entries_of_leads parsed leads] at failed
        obtain ⟨eq, lone, text, surrogate⟩ := entryOf_eq_error_iff.mp failed
        exact .inl ⟨eq, document, lone, rfl, text ▸ leads, surrogate⟩
  case mpr =>
    intro h
    rcases h with ⟨eq, document, lone, parsed, leads, surrogate⟩ | ⟨eq, deep⟩
    case inl =>
      rw [takes.entries_of_leads parsed leads]
      exact entryOf_eq_error_iff.mpr ⟨eq, lone, rfl, surrogate⟩
    case inr =>
      subst eq
      exact takes.entries_of_deep deep canExpand

end Takes

-- A field that takes a part of a JSON text.
def taking (key path : Value) : Field where
  value := []
  key
  isJson := true
  remotePath := path
  outputKey := .null
  profile := .null
  version := .null

def hosts : Value :=
  .object [("hosts", .list [.null, "é"])]

theorem isJoined_hosts : hosts.IsJson Text.IsJoined := by
  refine .object ⟨rfl, trivial⟩ (by decide) (List.forall_mem_singleton.mpr (.list ?_))
  exact List.forall_mem_cons.mpr ⟨.null, List.forall_mem_singleton.mpr (.text (by decide))⟩

-- Lists in lists, of which the innermost is empty.
def nested : Nat → Value
  | 0 => .list []
  | n + 1 => .list [nested n]

theorem depth_nested (n : Nat) : (nested n).depth = n + 1 := by
  induction n
  case zero => rfl
  case succ n hi => rw [nested, Value.depth, Value.depthOfItems, hi, Value.depthOfItems, Nat.max_zero]

theorem isJoined_nested (n : Nat) : (nested n).IsJson Text.IsJoined := by
  induction n
  case zero => exact .list (List.forall_mem_nil _)
  case succ n hi => exact .list (List.forall_mem_singleton.mpr hi)

end Field

end SecretSync
