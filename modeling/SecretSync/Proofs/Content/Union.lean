import SecretSync.Proofs.Content.Assembly

/-!
Contents put together. At each key counts the first of the contents that has it, and the order of the
entries follows from their keys, so it does not matter how the contents are grouped. Main statements:
`get?_foldl_merge`, `exists_isUnion`, `IsUnion.flatten`.
-/

namespace SecretSync

namespace Content

variable {ν : Type} {merged content content' : Table Key ν} {parts : List (Table Key ν)}

theorem get?_merge (key : Key) (toMerge : Table Key ν) :
    (merge merged toMerge).get? key = (merged.get? key).or (toMerge.get? key) := by
  induction toMerge generalizing merged
  case nil => simp [merge, Table.get?]
  case cons entry rest hi =>
    have first := Table.get?_putNew entry.1 key entry.2 merged
    have := @hi (merged.putNew entry.1 entry.2)
    simp only [merge, List.foldl_cons] at this ⊢
    rw [this, first, Table.get?]
    split
    case isTrue => simp
    case isFalse => simp

theorem get?_foldl_merge (key : Key) :
    (parts.foldl merge merged).get? key = (merged.get? key).or (parts.findSome? (Table.get? key)) := by
  induction parts generalizing merged
  case nil => simp
  case cons part rest hi =>
    rw [List.foldl_cons, hi, get?_merge, Option.or_assoc, List.findSome?_cons]
    cases part.get? key
    all_goals rfl

-- All keys are texts.
def IsNamed (t : Table Key ν) : Prop :=
  ∀ entry ∈ t, ∃ name, entry.1 = .text name

namespace IsNamed

theorem nil : IsNamed ([] : Table Key ν) :=
  List.forall_mem_nil _

theorem putNew {key : Text} {value : ν} (h : IsNamed merged) : IsNamed (merged.putNew (.text key) value) := by
  intro entry mem
  simp only [Table.putNew] at mem
  split at mem
  case isTrue => exact h entry mem
  case isFalse =>
    rcases Table.mem_put mem with mem | ⟨_, eq | ⟨_, v, mem⟩⟩
    · exact h entry mem
    · exact ⟨key, eq⟩
    · exact h (entry.1, v) mem

theorem merge {toMerge : Table Key ν} (h : IsNamed merged) (h' : IsNamed toMerge) :
    IsNamed (merge merged toMerge) := by
  induction toMerge generalizing merged
  case nil => exact h
  case cons entry rest hi =>
    have ⟨⟨name, eq⟩, others⟩ := List.forall_mem_cons.mp h'
    have first : IsNamed (merged.putNew entry.1 entry.2) := eq ▸ h.putNew
    exact hi first others

theorem foldl_merge (h : IsNamed merged) (named : ∀ part ∈ parts, IsNamed part) :
    IsNamed (parts.foldl Content.merge merged) := by
  induction parts generalizing merged
  case nil => exact h
  case cons part rest hi =>
    have ⟨first, others⟩ := List.forall_mem_cons.mp named
    exact hi (h.merge first) others

end IsNamed

-- The keys are texts, each before the next, and each has the value of the first part that has the key.
structure IsUnion (parts : List (Table Key ν)) (content : Table Key ν) : Prop where
  increasing : ∃ entries, content = named entries ∧ entries.Pairwise fun a b => a.1.before b.1 = true
  holds : ∀ key, content.get? key = parts.findSome? (Table.get? key)

theorem distinct_of_increasing {entries : List (Text × ν)}
    (h : entries.Pairwise fun a b => a.1.before b.1 = true) : Table.Distinct (named entries) := by
  rw [Table.distinct_iff_pairwise, named, List.pairwise_map]
  refine h.imp fun {a b} before => ?_
  have differ : a.1 ≠ b.1 := by
    intro same
    have after := Text.isWeak_before.asymm before
    rw [same] at before after
    exact Bool.false_ne_true (after.symm.trans before)
  simpa using differ

theorem exists_isUnion (h : ∀ part ∈ parts, IsNamed part) :
    ∃ content, sorted (parts.foldl merge []) = .ok content ∧ IsUnion parts content := by
  have distinct : Table.Distinct (parts.foldl merge []) :=
    @distinct_foldl_merge _ [] trivial parts
  have start : IsNamed ([] : Table Key ν) := .nil
  have ⟨entries, eq⟩ := exists_named (start.foldl_merge h)
  have inOrder := sorted_named entries
  rw [← eq] at inOrder
  have nodup := nodup_of_distinct (distinct_sorted distinct inOrder)
  refine ⟨_, inOrder, ⟨_, rfl, ?increasing⟩, fun key => ?holds⟩
  case increasing =>
    -- No entry comes before an earlier one, and no two entries have the same key.
    refine ((Sorting.isSorted_sort isWeak_byName entries).and (List.pairwise_map.mp nodup)).imp ?_
    intro a b ⟨notAfter, differ⟩
    cases before : a.1.before b.1
    case false => exact absurd (Text.eq_of_not_before before notAfter) differ
    case true => rfl
  case holds =>
    rw [Table.get?_eq_of_perm (distinct_sorted distinct inOrder) (perm_sorted inOrder), get?_foldl_merge]
    rfl

theorem IsUnion.isNamed (h : IsUnion parts content) : IsNamed content := by
  have ⟨_, eq, _⟩ := h.increasing
  subst eq
  intro entry mem
  have ⟨named, _, eq⟩ := List.mem_map.mp mem
  exact ⟨named.1, eq ▸ rfl⟩

theorem IsUnion.exists_part (h : IsUnion parts content) (named : ∀ part ∈ parts, IsNamed part) :
    ∀ entry ∈ content, ∃ part ∈ parts, entry ∈ part := by
  intro (key, value) mem
  have ⟨_, eq, increasing⟩ := h.increasing
  have distinct : Table.Distinct content := eq ▸ distinct_of_increasing increasing
  have found := h.holds key ▸ Table.get?_of_mem distinct mem
  have ⟨part, within, holds⟩ := List.exists_of_findSome?_eq_some found
  have ⟨given, mem', same⟩ := Table.exists_mem_of_get? holds
  have ⟨name, textual⟩ : ∃ name, given = .text name := named part within _ mem'
  subst textual
  exact ⟨part, within, Key.eq_of_beq_text same ▸ mem'⟩

theorem IsUnion.unique (h : IsUnion parts content) (h' : IsUnion parts content') : content = content' := by
  have ⟨entries, eq, increasing⟩ := h.increasing
  have ⟨entries', eq', increasing'⟩ := h'.increasing
  subst eq eq'
  have permuted := Table.perm_of_get?_eq (distinct_of_increasing increasing)
    (distinct_of_increasing increasing') (fun key => (h.holds key).trans (h'.holds key).symm) plain_named
  have once (a b : Text × ν) (before : a.1.before b.1 = true) (after : b.1.before a.1 = true) : a = b := by
    cases after.symm.trans (Text.isWeak_before.asymm before)
  exact congrArg _ ((perm_of_named permuted).eq_of_pairwise (fun a b _ _ => once a b) increasing increasing')

theorem IsUnion.flatten {α : Type} {groups : List α} {parts : α → List (Table Key ν)}
    {whole : α → Table Key ν}
    (h : IsUnion (groups.map whole) content) (each : ∀ group ∈ groups, IsUnion (parts group) (whole group)) :
    IsUnion (groups.flatMap parts) content := by
  refine ⟨h.increasing, fun key => ?_⟩
  rw [h.holds]
  clear h
  induction groups
  case nil => rfl
  case cons group rest hi =>
    have ⟨first, others⟩ := List.forall_mem_cons.mp each
    rw [List.map_cons, List.findSome?_cons, List.flatMap_cons, List.findSome?_append, first.holds]
    rw [hi others]
    cases (parts group).findSome? (Table.get? key)
    all_goals rfl

end Content
end SecretSync
