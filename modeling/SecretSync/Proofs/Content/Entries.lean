import SecretSync.Content.Entries
import SecretSync.Proofs.Content.Union
import SecretSync.Proofs.Lookup

/-!
The entries that a field makes are named by texts, if its key is a text or left out: they have that key,
or the names of the members of an object. Main statement: `Field.named_entries`.
-/

namespace SecretSync

open Content (IsNamed)

variable {content : Content} {fetched : Value}

theorem Result.recover_eq_ok {α : Type} {result : Result α} {fallback a : α}
    (h : result.recover fallback = .ok a) : result = .ok a ∨ a = fallback := by
  cases result
  case ok => exact .inl h
  case error fault =>
    simp only [recover] at h
    split at h
    case isTrue => exact .inr (Except.ok.inj h).symm
    case isFalse => cases h

theorem Content.named_single {key : Value} {payload : Bytes} (textual : ∃ t, key = .text t)
    (h : single key payload = .ok content) : IsNamed content := by
  have ⟨t, eq⟩ := textual
  subst eq
  cases h
  intro entry mem
  cases List.mem_singleton.mp mem
  exact ⟨t, rfl⟩

theorem Content.mem_ofMembers {members : List (Text × Value)} (h : ofMembers members = .ok content) :
    ∀ entry ∈ content, ∃ member ∈ members, ∃ payload, entry = (.text member.1, .bytes payload) := by
  induction members generalizing content
  case nil =>
    cases h
    exact List.forall_mem_nil _
  case cons member rest hi =>
    simp only [ofMembers, Result.bind_eq_ok_iff] at h
    obtain ⟨_, _, payload, _, others, made, eq⟩ := h
    cases eq
    intro entry mem
    cases mem
    case head => exact ⟨member, List.mem_cons_self, payload, rfl⟩
    case tail mem =>
      obtain ⟨given, mem, payload, eq⟩ := hi made entry mem
      exact ⟨given, List.mem_cons_of_mem _ mem, payload, eq⟩

theorem Content.named_ofMembers {members : List (Text × Value)} (h : ofMembers members = .ok content) :
    IsNamed content := by
  intro entry mem
  have ⟨member, _, _, eq⟩ := mem_ofMembers h entry mem
  exact ⟨member.1, congrArg Prod.fst eq⟩

theorem Content.named_expand (h : expand fetched = .ok content) : IsNamed content := by
  simp only [expand, Result.bind_eq_ok_iff] at h
  obtain ⟨document, _, made⟩ := h
  split at made
  case h_1 => exact named_ofMembers made
  case h_2 => cases made

theorem Field.named_entries {field : Field} {canExpand : Bool} (textual : field.key.IsTextOrNull)
    (h : field.entries fetched canExpand = .ok content) : IsNamed content := by
  simp only [entries] at h
  split at h
  case isTrue given =>
    have named : ∃ t, field.key = .text t := by
      cases textual
      case inl eq =>
        rw [eq] at given
        cases given
      case inr eq => exact eq
    split at h
    · simp only [Result.bind_eq_ok_iff] at h
      obtain ⟨part, _, h⟩ := h
      split at h
      case isTrue =>
        cases h
        exact .nil
      case isFalse =>
        simp only [Result.bind_eq_ok_iff] at h
        obtain ⟨_, _, made⟩ := h
        exact Content.named_single named made
    · simp only [Result.bind_eq_ok_iff] at h
      obtain ⟨_, _, made⟩ := h
      exact Content.named_single named made
  case isFalse =>
    split at h
    case isTrue =>
      rcases Result.recover_eq_ok h with made | eq
      case inl => exact Content.named_expand made
      case inr => exact eq ▸ .nil
    case isFalse =>
      cases h
      exact .nil

end SecretSync
