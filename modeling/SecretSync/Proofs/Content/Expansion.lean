import SecretSync.Content.Resolution
import SecretSync.Proofs.Content.Entries
import SecretSync.Proofs.Content.Fingerprint
import SecretSync.Proofs.Content.Written
import SecretSync.Proofs.Json.Parsed
import SecretSync.Proofs.Path

/-!
What fields take from objects that were fetched. It passes through the JSON text of the object or of one of its
members, and nothing is lost there. Main statement: `outputEntries_of_object`.
-/

namespace SecretSync

open Result (FailsOnly failsOnly_ok failsOnly_error failsOnly_ofOption)

namespace Value

-- One entry for each member of an object. Other values have no members.
def expanded : Value → Content
  | object members => Content.named (members.map fun member => (member.1, .bytes member.2.contribution))
  | _ => []

variable {v : Value}

theorem IsPlain.toText_eq (plain : v.IsPlain) : v.toText = .ok v.written :=
  plain.isJson.toText_eq

theorem IsPlain.encodeText_written (plain : v.IsPlain) : encodeText v.written = .ok v.contribution := by
  refine plain.isJson.encodeText_written fun t eq => ?_
  subst eq
  cases plain
  case text scalar => exact scalar

theorem IsPlain.parse_written (plain : v.IsPlain) (shallow : v.depth ≤ Json.maxDepth) (notText : ∀ t, v ≠ .text t)
    (notNull : v ≠ .null) : Json.parse v.written = .ok v :=
  plain.isJoined.parse_written shallow notText notNull

end Value

theorem Value.eq_text_of_key? {v : Value} {t : Text} (h : v.key? = some (.text t)) : v = .text t := by
  cases v
  case text =>
    cases h
    rfl
  all_goals cases h

namespace Path

open Value (IsPlain)

theorem walk_isPlain {v w : Value} {path : List Text} (plain : v.IsPlain) (h : walk path v = .ok (some w)) :
    w.IsPlain := by
  refine (leads_of_walk h).inherits (fun items plain => ?list) (fun members plain => ?object) plain
  case list =>
    cases plain
    assumption
  case object =>
    cases plain
    assumption

-- Null has no parts.
theorem walk_null (path : Text) : walk (segments path) .null = .ok none := by
  obtain ⟨segment, rest, eq⟩ := List.exists_cons_of_ne_nil (Text.split_ne_nil '.' path)
  rw [segments, eq]
  rfl

end Path

variable {v : Value} {field : Field} {members : List (Text × Value)} {fetched : Fetched}

theorem Content.ofMembers_eq_expanded (plain : ∀ member ∈ members, member.2.IsPlain) :
    ofMembers members = .ok (Value.object members).expanded := by
  induction members
  case nil => rfl
  case cons member rest hi =>
    have ⟨first, others⟩ := List.forall_mem_cons.mp plain
    obtain ⟨name, v⟩ := member
    rw [ofMembers, Value.IsPlain.toText_eq first]
    simp only [bind, Except.bind, Value.IsPlain.encodeText_written first, hi others]
    rfl

theorem Content.expand_written (plain : v.IsPlain) (shallow : v.depth ≤ Json.maxDepth) (notText : ∀ t, v ≠ .text t) :
    (expand (.text v.written)).recover [] = .ok v.expanded := by
  by_cases null : v = .null
  case pos =>
    subst null
    rfl
  case neg =>
    rw [expand, Json.parseValue, plain.parse_written shallow notText null]
    cases plain
    case null => exact absurd rfl null
    case text t _ => exact absurd rfl (notText t)
    case object members _ _ each =>
      simp only [bind, Except.bind, ofMembers_eq_expanded each]
      rfl
    all_goals rfl

theorem textWithin_written {path : Text} (plain : v.IsPlain) (shallow : v.depth ≤ Json.maxDepth)
    (notText : ∀ t, v ≠ .text t) :
    (textWithin (.text v.written) (.text path)).recover [] =
      (((Path.walk (Path.segments path) v).recover none).map fun part => (part.map Value.written).getD []) := by
  by_cases null : v = .null
  case pos =>
    subst null
    rw [Path.walk_null]
    rfl
  case neg =>
    have read := plain.parse_written shallow notText null
    have unreadable := Path.walk_failsOnly (Path.segments path) v
    simp only [textWithin, Json.parseValue, read, bind, Except.bind, Path.textAt]
    cases reached : Path.walk (Path.segments path) v
    case error fault =>
      have recoverable := unreadable fault reached
      simp only [Result.recover, recoverable, if_pos]
      rfl
    case ok part =>
      cases part
      case none => rfl
      case some part =>
        simp only [(Path.walk_isPlain plain reached).toText_eq]
        rfl

namespace Field

-- The entry that a path makes of a value: that of the part it leads to, unless that has no text.
def entryAt (field : Field) (path : Text) (v : Value) : Result Content := do
  match ← (Path.walk (Path.segments path) v).recover none with
  | some part =>
    if part.written.isEmpty then pure []
    else Content.single field.key part.contribution
  | none => pure []

theorem entries_of_key (plain : v.IsPlain) (given : field.key.isGiven = true)
    (whole : field.isJson = false ∨ field.remotePath.isGiven = false) :
    field.entries (.text v.written) true = Content.single field.key v.contribution := by
  have whole : ¬(field.isJson && field.remotePath.isGiven) = true := by
    rcases whole with eq | eq
    all_goals simp [eq]
  rw [entries, if_pos given, if_neg whole, Value.toBytes, plain.encodeText_written]
  rfl

theorem entries_of_path {path : Text} (plain : v.IsPlain) (shallow : v.depth ≤ Json.maxDepth)
    (notText : ∀ t, v ≠ .text t) (given : field.key.isGiven = true) (json : field.isJson = true)
    (walked : field.remotePath = .text path) (nonempty : path ≠ []) :
    field.entries (.text v.written) true = field.entryAt path v := by
  have part : (field.isJson && field.remotePath.isGiven) = true := by
    cases path
    case nil => exact absurd rfl nonempty
    case cons => simp [json, walked, Value.isGiven]
  rw [entries, if_pos given, if_pos part, walked, textWithin_written plain shallow notText, entryAt]
  cases reached : (Path.walk (Path.segments path) v).recover none
  case error => rfl
  case ok part =>
    cases part
    case none => rfl
    case some part =>
      have part : part.IsPlain := by
        rcases Result.recover_eq_ok reached with reached | eq
        case inl => exact Path.walk_isPlain plain reached
        case inr => cases eq
      simp only [Except.map, bind, Except.bind, Option.map_some, Option.getD_some, part.encodeText_written]

theorem entries_of_no_key (plain : v.IsPlain) (shallow : v.depth ≤ Json.maxDepth) (notText : ∀ t, v ≠ .text t)
    (given : field.key.isGiven = false) : field.entries (.text v.written) true = .ok v.expanded := by
  rw [entries, if_neg (by simp [given]), if_pos rfl, Content.expand_written plain shallow notText]

end Field

-- A fault other than that an output is missing.
abbrev Fault.IsOther (fault : Fault) : Prop :=
  ∀ stack output, fault ≠ .outputNotFound stack output

theorem Fault.isOther_notAnObject {kind : DocumentKind} : (Fault.notAnObject kind).IsOther :=
  nofun

theorem Json.Unreadable.isOther {fault : Fault} (h : Json.Unreadable fault) : fault.IsOther := by
  intro stack output eq
  subst eq
  cases h

theorem Json.Refuses.isOther {room : Nat} {t : Text} {fault : Fault} (h : Json.Refuses room t fault) :
    fault.IsOther := by
  rcases h with unreadable | ⟨eq, _⟩
  case inl => exact unreadable.isOther
  case inr =>
    subst eq
    nofun

theorem Value.toText_failsOnly (v : Value) : FailsOnly Fault.IsOther v.toText := by
  rw [toText.eq_def]
  split
  · exact failsOnly_ok _
  · exact failsOnly_ok _
  · rw [Json.print]
    split
    · exact failsOnly_ok _
    · exact failsOnly_error nofun

theorem Value.encodeText_failsOnly (t : Text) : FailsOnly Fault.IsOther (encodeText t) :=
  failsOnly_ofOption _ nofun

theorem Content.single_failsOnly (key : Value) (payload : Bytes) :
    FailsOnly Fault.IsOther (single key payload) := by
  rw [single, Value.asKey]
  exact (failsOnly_ofOption _ nofun).bind fun _ => failsOnly_ok _

theorem Content.ofMembers_failsOnly (members : List (Text × Value)) :
    FailsOnly Fault.IsOther (ofMembers members) := by
  induction members
  case nil => exact failsOnly_ok _
  case cons member rest hi =>
    rw [ofMembers]
    refine (Value.toText_failsOnly _).bind fun t => (Value.encodeText_failsOnly t).bind fun _ => ?_
    exact hi.bind fun _ => failsOnly_ok _

theorem textWithin_failsOnly (t : Text) (path : Value) : FailsOnly Fault.IsOther (textWithin (.text t) path) := by
  rw [textWithin]
  refine ((Json.parse_failsOnly t).mono fun _ => Json.Refuses.isOther).bind fun document => ?_
  split
  case h_1 path =>
    rw [Path.textAt]
    refine ((Path.walk_failsOnly _ _).mono fun _ => Json.Unreadable.isOther).bind fun part => ?_
    cases part
    case none => exact failsOnly_ok _
    case some part => exact part.toText_failsOnly
  case h_2 => exact failsOnly_error nofun

-- The fault that an output is missing does not come from making entries.
theorem Field.entries_failsOnly (field : Field) (t : Text) (canExpand : Bool) :
    FailsOnly Fault.IsOther (field.entries (.text t) canExpand) := by
  rw [entries]
  split
  · split
    · refine ((textWithin_failsOnly t _).recover _).bind fun part => ?_
      split
      · exact failsOnly_ok _
      · exact (Value.encodeText_failsOnly part).bind fun _ => Content.single_failsOnly _ _
    · exact (Value.encodeText_failsOnly t).bind fun _ => Content.single_failsOnly _ _
  · split
    · refine FailsOnly.recover (FailsOnly.bind ?_ fun document => ?_) _
      · exact (Json.parse_failsOnly t).mono fun _ => Json.Refuses.isOther
      · split
        · exact Content.ofMembers_failsOnly _
        · exact failsOnly_error Fault.isOther_notAnObject
    · exact failsOnly_ok _

-- The object with these members, as it is fetched from either kind of stack.
inductive Fetched.Holds (members : List (Text × Value)) : Fetched → Prop
  | value : Holds members (.value (.object members))
  | outputs : Holds members (.outputs (Content.named members))

namespace Fetched.Holds

theorem toJson_eq (holds : fetched.Holds members) (plain : (Value.object members).IsPlain) :
    fetched.toJson = .ok (Value.object members).written := by
  cases holds
  case value => exact plain.isJson.print_eq
  case outputs =>
    rw [toJson, Content.named, List.mapM_map,
      Result.mapM_eq_ok_map (g := id) fun member mem => by rfl, List.map_id]
    exact plain.isJson.print_eq

theorem get?_named (name : Text) : (Content.named members).get? (.text name) = Table.get? name members := by
  induction members
  case nil => rfl
  case cons member rest hi =>
    simp only [Content.named, List.map_cons, Table.get?, Key.text_beq_text, beq_eq_decide]
    rw [← Content.named, hi]

theorem get?_named_of_absent {key : Key} (absent : ∀ member ∈ members, key ≠ .text member.1) :
    (Content.named members).get? key = none := by
  refine Table.get?_eq_none_iff.mpr fun entry mem => Bool.eq_false_iff.mpr fun same => ?_
  have ⟨member, given, eq⟩ := List.mem_map.mp mem
  subst eq
  exact absent member given (Key.eq_of_beq_text same).symm

theorem hasOutput_eq (holds : fetched.Holds members) {name : Value} {key : Key} (h : name.key? = some key) :
    fetched.hasOutput name = .ok ((Content.named members).has key) := by
  have asKey : name.asKey = .ok key := by
    rw [Value.asKey, h]
    rfl
  cases holds
  case value =>
    simp only [hasOutput, Value.contains, asKey, bind, Except.bind]
    split
    case h_1 name => rw [Table.has, Table.has, get?_named]
    case h_2 other => rw [Table.has, get?_named_of_absent fun member _ => other member.1, Option.isSome_none]
  case outputs =>
    rw [hasOutput, asKey]
    rfl

theorem output_eq (holds : fetched.Holds members) {name : Text} {v : Value}
    (h : Table.get? name members = some v) : fetched.output (.text name) = .ok v := by
  cases holds
  case value =>
    rw [output, Value.select, h]
    rfl
  case outputs =>
    rw [output, Value.asKey, Value.key?]
    simp only [Result.ofOption, bind, Except.bind, get?_named, h]

end Fetched.Holds

namespace Field

-- What a field selects from the object: all of it, or the member that is declared as its output.
inductive Selects (field : Field) (members : List (Text × Value)) : Value → Prop
  | whole (undeclared : field.outputKey.isGiven = false) : Selects field members (.object members)
  | one {name : Text} {v : Value} (declared : field.outputKey = .text name) (nonempty : name ≠ [])
      (mem : (name, v) ∈ members) : Selects field members v

-- The object has no member of the declared output. Asking for what cannot be a key is a fault of its own.
structure Lacks (field : Field) (members : List (Text × Value)) : Prop where
  declared : field.outputKey.isGiven = true
  scalar   : field.outputKey.key?.isSome
  absent   : ∀ member ∈ members, field.outputKey ≠ .text member.1

theorem Selects.isPlain (selects : field.Selects members v) (plain : (Value.object members).IsPlain) :
    v.IsPlain := by
  cases selects
  case whole => exact plain
  case one mem =>
    cases plain
    case object each => exact each _ mem

theorem Selects.depth_le (selects : field.Selects members v) : v.depth ≤ (Value.object members).depth := by
  cases selects
  case whole => exact Nat.le_refl _
  case one mem => exact Value.depth_le_of_mem mem

theorem Selects.outputText_eq (selects : field.Selects members v) (plain : (Value.object members).IsPlain)
    (holds : fetched.Holds members) : field.outputText fetched = .ok v.written := by
  have text := (selects.isPlain plain).toText_eq
  cases selects
  case whole undeclared => rw [outputText, if_neg (by simp [undeclared]), holds.toJson_eq plain]
  case one name declared nonempty mem =>
    have given : field.outputKey.isGiven = true := by simp [declared, Value.isGiven, nonempty]
    have found : Table.get? name members = some v := by
      cases plain
      case object distinct _ _ => exact Table.get?_of_mem distinct mem
    have there : fetched.hasOutput (.text name) = .ok true := by
      rw [holds.hasOutput_eq rfl, Table.has, Fetched.Holds.get?_named, found]
      rfl
    rw [outputText, if_pos given, declared, there, holds.output_eq found]
    exact text

theorem Lacks.outputText_eq (lacks : field.Lacks members) (holds : fetched.Holds members) :
    field.outputText fetched = .error (.outputNotFound (.text field.value) field.outputKey) := by
  have ⟨key, eq⟩ := Option.isSome_iff_exists.mp lacks.scalar
  have absent : fetched.hasOutput field.outputKey = .ok false := by
    rw [holds.hasOutput_eq eq, Table.has, Fetched.Holds.get?_named_of_absent, Option.isSome_none]
    intro member mem same
    subst same
    exact lacks.absent member mem (Value.eq_text_of_key? eq)
  rw [outputText, if_pos lacks.declared, absent]
  rfl

theorem selects_or_lacks (holds : fetched.Holds members) (field : Field) :
    (∃ v, field.Selects members v) ∨ field.Lacks members ∨ field.outputText fetched = .error .wrongKind := by
  by_cases given : field.outputKey.isGiven = true
  case neg => exact .inl ⟨_, .whole (by simpa using given)⟩
  case pos =>
    cases scalar : field.outputKey.key?
    case none =>
      refine .inr (.inr ?_)
      have failed : fetched.hasOutput field.outputKey = .error .wrongKind := by
        cases holds
        all_goals
          simp only [Fetched.hasOutput, Value.contains, Value.asKey, scalar]
          rfl
      rw [outputText, if_pos given, failed]
      rfl
    case some =>
      by_cases absent : ∀ member ∈ members, field.outputKey ≠ .text member.1
      case pos => exact .inr (.inl ⟨given, by simp [scalar], absent⟩)
      case neg =>
        simp only [not_forall, not_not] at absent
        obtain ⟨member, mem, eq⟩ := absent
        refine .inl ⟨member.2, .one eq ?_ mem⟩
        intro empty
        simp [eq, empty, Value.isGiven] at given

theorem outputEntries_eq_outputNotFound_iff (plain : (Value.object members).IsPlain)
    (holds : fetched.Holds members) {stack output : Value} :
    field.outputEntries fetched = .error (.outputNotFound stack output) ↔
      field.Lacks members ∧ stack = .text field.value ∧ output = field.outputKey := by
  rw [outputEntries]
  constructor
  case mp =>
    intro failed
    rcases selects_or_lacks holds field with ⟨v, selects⟩ | lacks | unusable
    · rw [selects.outputText_eq plain holds] at failed
      exact absurd rfl (entries_failsOnly field v.written true _ failed stack output)
    · rw [lacks.outputText_eq holds] at failed
      cases failed
      exact ⟨lacks, rfl, rfl⟩
    · rw [unusable] at failed
      cases failed
  case mpr =>
    intro h
    obtain ⟨lacks, eq, eq'⟩ := h
    rw [lacks.outputText_eq holds, eq, eq']
    rfl

theorem Selects.outputEntries_eq (selects : field.Selects members v) (plain : (Value.object members).IsPlain)
    (holds : fetched.Holds members) : field.outputEntries fetched = field.entries (.text v.written) true := by
  rw [outputEntries, selects.outputText_eq plain holds]
  rfl

theorem entriesOf_vault_of_no_key (plain : (Value.object members).IsPlain)
    (shallow : (Value.object members).depth ≤ Json.maxDepth) (holds : fetched.Holds members)
    (keyless : field.key.isGiven = false) :
    field.entriesOf .vault fetched = .ok (Value.object members).expanded := by
  have whole : field.secretText fetched = .ok (Value.object members).written := by
    rw [secretText, if_neg (by simp [keyless])]
    exact holds.toJson_eq plain
  rw [entriesOf, whole]
  exact entries_of_no_key plain shallow nofun keyless

-- A field of the stack "live".
def ofLive (key output path : Value) : Field where
  value := "live"
  key
  isJson := true
  remotePath := path
  outputKey := output
  profile := .null
  version := .null

def liveOutputs : List (Text × Value) :=
  [("name", "é"), ("port", .int 80), ("tags", .list ["é"]), ("gone", .null)]

theorem isPlain_liveOutputs : (Value.object liveOutputs).IsPlain := by
  refine .object ⟨by decide, by decide, by decide, by decide, trivial⟩ (by decide) ?_
  simp only [liveOutputs, List.forall_mem_cons]
  refine ⟨.text (by decide), .int (by decide), .list ?_, .null, List.forall_mem_nil _⟩
  simp only [List.forall_mem_cons]
  exact ⟨.text (by decide), List.forall_mem_nil _⟩

end Field

end SecretSync
