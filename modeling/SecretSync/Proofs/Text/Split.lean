import SecretSync.Text.Basic

/-!
A text is the parts between its separators, put together again. Main statement: `isSplit_iff`.
-/

namespace SecretSync.Text

variable {sep : CodePoint} {t : Text} {parts : List Text}

-- The parts that the separators of a text set apart.
structure IsSplit (sep : CodePoint) (t : Text) (parts : List Text) : Prop where
  nonempty : parts ≠ []
  free     : ∀ part ∈ parts, sep ∉ part
  joined   : join [sep] parts = t

theorem join_cons_cons (part : Text) (next : Text) (rest : List Text) :
    join [sep] (part :: next :: rest) = part ++ sep :: join [sep] (next :: rest) := by
  simp only [join, List.append_assoc, List.cons_append, List.nil_append]

theorem isSplit_split (sep : CodePoint) (t : Text) : IsSplit sep t (split sep t) := by
  induction t
  case nil => exact ⟨List.cons_ne_nil _ _, by simp [split], rfl⟩
  case cons c cs hi =>
    obtain ⟨part, parts, eq⟩ := List.exists_cons_of_ne_nil hi.nonempty
    rw [split]
    rw [eq] at hi ⊢
    obtain ⟨first, others⟩ := List.forall_mem_cons.mp hi.free
    split
    case isTrue same =>
      refine ⟨List.cons_ne_nil _ _, List.forall_mem_cons.mpr ⟨List.not_mem_nil, hi.free⟩, ?_⟩
      rw [join_cons_cons, hi.joined, same]
      rfl
    case isFalse apart =>
      refine ⟨List.cons_ne_nil _ _, List.forall_mem_cons.mpr ⟨?_, others⟩, ?_⟩
      · exact List.not_mem_cons_of_ne_of_not_mem (Ne.symm apart) first
      · rw [← hi.joined]
        cases parts
        all_goals simp [join]

theorem split_eq_singleton (free : sep ∉ t) : split sep t = [t] := by
  induction t
  case nil => rfl
  case cons c t hi =>
    simp only [List.mem_cons, not_or] at free
    simp [split, Ne.symm free.left, hi free.right]

theorem split_append_sep (s t : Text) : split sep (s ++ sep :: t) = split sep s ++ split sep t := by
  induction s
  case nil => simp [split]
  case cons c cs hi =>
    rw [List.cons_append, split, split, hi]
    split
    case isTrue => rfl
    case isFalse =>
      obtain ⟨part, parts, eq⟩ := List.exists_cons_of_ne_nil (split_ne_nil sep cs)
      rw [eq]
      rfl

theorem split_append {part : Text} (free : sep ∉ part) (t : Text) :
    split sep (part ++ sep :: t) = part :: split sep t := by
  rw [split_append_sep, split_eq_singleton free]
  rfl

theorem afterLast?_append {part : Text} (front : Text) (free : sep ∉ part) :
    afterLast? sep (front ++ sep :: part) = some part := by
  obtain ⟨first, parts, eq⟩ := List.exists_cons_of_ne_nil (split_ne_nil sep front)
  have split : split sep (front ++ sep :: part) = first :: (parts ++ [part]) := by
    rw [split_append_sep, eq, split_eq_singleton free]
    rfl
  rw [afterLast?, split]
  cases parts
  case nil => rfl
  case cons second rest => exact List.getLast?_concat (l := second :: rest)

theorem isSplit_iff : IsSplit sep t parts ↔ split sep t = parts := by
  constructor
  case mpr => exact fun eq => eq ▸ isSplit_split sep t
  case mp =>
    intro h
    have ⟨nonempty, free, joined⟩ := h
    subst joined
    clear h
    induction parts
    case nil => exact absurd rfl nonempty
    case cons part rest hi =>
      have ⟨first, others⟩ := List.forall_mem_cons.mp free
      cases rest
      case nil => exact split_eq_singleton first
      case cons next rest =>
        rw [join_cons_cons, split_append first, hi (List.cons_ne_nil _ _) others]

end SecretSync.Text
