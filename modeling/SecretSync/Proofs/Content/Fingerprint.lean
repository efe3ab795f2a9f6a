import Mathlib.Data.List.Sort
import SecretSync.Content.Fingerprint
import SecretSync.Proofs.Result
import SecretSync.Proofs.Sorting.Map
import SecretSync.Proofs.Table

/-!
The fingerprint does not depend on the order in which the entries of a content were added: a content
that has one is keyed by texts, and its entries are put in the order of their keys first. Main
statement: `fingerprint_eq_of_perm`.
-/

namespace SecretSync

namespace Text

theorem eq_of_not_before {s t : Text} (h : before s t = false) (k : before t s = false) : s = t := by
  induction s generalizing t
  case nil => cases t <;> simp_all [before]
  case cons a s hi =>
    cases t
    case nil => simp [before] at k
    case cons b t =>
      simp only [before, Bool.or_eq_false_iff, Bool.and_eq_false_iff, decide_eq_false_iff_not] at h k
      have same : a = b := Fin.le_antisymm (Fin.not_lt.mp k.left) (Fin.not_lt.mp h.left)
      subst same
      simp at h k
      exact congrArg _ (hi h k)

theorem isWeak_before : Sorting.IsWeak before where
  asymm {s t} h := by
    induction s generalizing t
    case nil => cases t <;> rfl
    case cons a s hi =>
      cases t
      case nil => simp [before] at h
      case cons b t =>
        simp only [before, Bool.or_eq_true, Bool.and_eq_true, decide_eq_true_eq, beq_iff_eq] at h
        cases h
        case inl less => simp [before, Fin.lt_asymm less, (Fin.ne_of_lt less).symm]
        case inr same => simp [before, same.left, hi same.right]
  -- The third text is compared at the first place where the other two differ, or before it.
  cotrans {s t} u h := by
    induction s generalizing t u
    case nil =>
      cases u
      case nil => exact .inr h
      case cons => exact .inl rfl
    case cons a s hi =>
      cases t
      case nil => simp [before] at h
      case cons b t =>
        cases u
        case nil => exact .inr rfl
        case cons c u =>
          simp only [before, Bool.or_eq_true, Bool.and_eq_true, decide_eq_true_eq, beq_iff_eq] at h ⊢
          cases h
          case inl less =>
            cases Fin.lt_or_ge a c
            case inl h => exact .inl (.inl h)
            case inr h => exact .inr (.inl (Fin.lt_of_le_of_lt h less))
          case inr same =>
            have ⟨same, behind⟩ := same
            subst same
            by_cases hc : c = a
            case pos =>
              cases hi u behind
              case inl h => exact .inl (.inr ⟨hc.symm, h⟩)
              case inr h => exact .inr (.inr ⟨hc, h⟩)
            case neg =>
              cases lt_or_gt_of_ne hc
              case inl h => exact .inr (.inl h)
              case inr h => exact .inl (.inl h)

end Text

theorem Key.eq_of_beq_text {name : Text} {key : Key} (h : (Key.text name == key) = true) :
    Key.text name = key := by
  have same := beq_iff.mp h
  cases key
  case text => simpa [identity] using same
  case float x =>
    simp only [identity, floatIdentity] at same
    split at same
    · simp at same
    · split at same <;> simp at same
  all_goals simp [identity] at same

namespace Content

variable {ν : Type}

-- The table whose keys are these texts.
def named (entries : List (Text × ν)) : Table Key ν :=
  entries.map fun entry => (.text entry.1, entry.2)

theorem plain_named {entries : List (Text × ν)} :
    ∀ entry ∈ named entries, ∀ key, (entry.1 == key) = true → entry.1 = key := by
  intro entry mem key same
  have ⟨_, _, eq⟩ := List.mem_map.mp mem
  subst eq
  exact Key.eq_of_beq_text same

theorem exists_named {t : Table Key ν} (h : ∀ entry ∈ t, ∃ name, entry.1 = .text name) :
    ∃ entries, t = named entries := by
  induction t
  case nil => exact ⟨[], rfl⟩
  case cons entry rest hi =>
    have ⟨⟨name, first⟩, others⟩ := List.forall_mem_cons.mp h
    have ⟨entries, eq⟩ := hi others
    exact ⟨(name, entry.2) :: entries, by simp [named, eq, ← first]⟩

theorem perm_of_named {entries others : List (Text × ν)} (h : (named entries).Perm (named others)) :
    entries.Perm others := by
  refine (List.map_perm_map_iff fun a b same => ?_).mp h
  have ⟨name, value⟩ := Prod.mk.inj same
  exact Prod.ext (Key.text.inj name) value

theorem nodup_of_distinct {entries : List (Text × ν)} (h : Table.Distinct (named entries)) :
    (entries.map Prod.fst).Nodup := by
  rw [Table.distinct_iff_pairwise, named, List.pairwise_map] at h
  exact List.pairwise_map.mpr (h.imp fun {_ _} differ => by simpa using differ)

def byName (a b : Text × ν) : Bool := a.1.before b.1

theorem isWeak_byName : Sorting.IsWeak (byName : Text × ν → Text × ν → Bool) :=
  ⟨fun h => Text.isWeak_before.asymm h, fun c h => Text.isWeak_before.cotrans c.1 h⟩

theorem sorted_named (entries : List (Text × ν)) :
    sorted (named entries) = .ok (named (Sorting.sort byName entries)) := by
  -- One entry needs no comparison, and texts can be compared.
  have orderable : isOrderable (named entries) = true := by
    match entries with
    | [] | [_] => rfl
    | _ :: _ :: _ => simp [named, isOrderable, Key.orderClass]
  rw [sorted, if_pos orderable]
  exact congrArg _ (Sorting.sort_map ..)

-- Texts are ordered totally, so entries with distinct names have one order.
theorem sort_eq_of_perm {entries others : List (Text × ν)} (h : entries.Perm others)
    (distinct : (entries.map Prod.fst).Nodup) :
    Sorting.sort byName entries = Sorting.sort byName others := by
  have perm : (Sorting.sort byName entries).Perm (Sorting.sort byName others) :=
    (Sorting.perm_sort _ _).trans (h.trans (Sorting.perm_sort _ _).symm)
  refine perm.eq_of_pairwise (fun a b ha hb hab hba => ?_) (Sorting.isSorted_sort isWeak_byName entries)
    (Sorting.isSorted_sort isWeak_byName others)
  have first : a ∈ entries := (Sorting.perm_sort _ _).mem_iff.mp ha
  have second : b ∈ entries := h.mem_iff.mpr ((Sorting.perm_sort _ _).mem_iff.mp hb)
  exact List.inj_on_of_nodup_map distinct first second (Text.eq_of_not_before hba hab)

theorem keyBytes_text {key : Key} {b : Bytes} (h : keyBytes key = .ok b) :
    ∃ name, key = .text name := by
  cases key
  case text name => exact ⟨name, rfl⟩
  all_goals cases h

theorem frameEntry_key {entry : Key × Payload} {b : Bytes} (h : frameEntry entry = .ok b) :
    ∃ name, entry.1 = .text name := by
  simp only [frameEntry] at h
  split at h
  · simp only [Result.bind_eq_ok_iff] at h
    obtain ⟨_, keyed, _⟩ := h
    exact keyBytes_text keyed
  · simp only [Result.bind_eq_ok_iff] at h
    obtain ⟨_, _, _, keyed, _⟩ := h
    exact keyBytes_text keyed
  · simp only [Result.bind_eq_ok_iff] at h
    obtain ⟨_, keyed, _⟩ := h
    exact keyBytes_text keyed

theorem frameEntries_keys {entries : List (Key × Payload)} {b : Bytes}
    (h : frameEntries entries = .ok b) : ∀ entry ∈ entries, ∃ name, entry.1 = .text name := by
  induction entries generalizing b
  case nil => simp
  case cons entry rest hi =>
    simp only [frameEntries, Result.bind_eq_ok_iff] at h
    obtain ⟨_, first, _, others, _⟩ := h
    exact List.forall_mem_cons.mpr ⟨frameEntry_key first, hi others⟩

theorem perm_sorted {t inOrder : Table Key ν} (h : sorted t = .ok inOrder) : inOrder.Perm t := by
  simp only [sorted] at h
  split at h
  · cases h
    exact Sorting.perm_sort _ _
  · cases h

theorem named_of_fingerprint {content : Content} {n : Nat} (h : content.fingerprint = .ok n) :
    ∃ entries, content = named entries := by
  simp only [fingerprint, preimage, Result.bind_eq_ok_iff] at h
  obtain ⟨_, ⟨_, ordered, framed⟩, _⟩ := h
  exact exists_named fun entry mem =>
    frameEntries_keys framed entry ((perm_sorted ordered).mem_iff.mpr mem)

theorem fingerprint_eq_of_perm {content other : Content} {n : Nat}
    (h : content.fingerprint = .ok n) (perm : content.Perm other)
    (distinct : Table.Distinct content) : other.fingerprint = .ok n := by
  have ⟨entries, eq⟩ := named_of_fingerprint h
  -- The other content has the same entries, so texts for keys as well.
  have ⟨others, eq'⟩ : ∃ others, other = named others := by
    refine exists_named fun entry mem => ?_
    have ⟨given, _, same⟩ := List.mem_map.mp (eq ▸ perm.mem_iff.mpr mem)
    exact ⟨given.1, same ▸ rfl⟩
  subst eq eq'
  have same := sort_eq_of_perm (perm_of_named perm) (nodup_of_distinct distinct)
  simpa [fingerprint, preimage, sorted_named, same] using h

end Content

end SecretSync
