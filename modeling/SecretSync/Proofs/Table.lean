import Mathlib.Data.List.Nodup
import Mathlib.Data.List.Perm.Basic
import SecretSync.Table

/-!
Tables up to the order of their entries. A table with distinct keys holds at a key what its entry says,
wherever the entry stands. Main statements: `distinct_iff_pairwise`, `get?_of_mem`.
-/

namespace SecretSync.Table

variable {κ ν : Type} [BEq κ] {key : κ} {t : Table κ ν}

theorem get?_eq_none_iff : get? key t = none ↔ ∀ entry ∈ t, (entry.1 == key) = false := by
  induction t
  case nil => simp [get?]
  case cons entry rest hi =>
    simp only [get?, List.forall_mem_cons]
    split
    case isTrue h => simp [h]
    case isFalse h => simp [h, hi]

theorem exists_mem_of_get? {value : ν} (h : get? key t = some value) :
    ∃ k, (k, value) ∈ t ∧ (k == key) = true := by
  induction t
  case nil => simp [get?] at h
  case cons entry rest hi =>
    simp only [get?] at h
    split at h
    case isTrue same =>
      cases h
      exact ⟨entry.1, List.mem_cons_self, same⟩
    case isFalse =>
      obtain ⟨k, mem, same⟩ := hi h
      exact ⟨k, List.mem_cons_of_mem _ mem, same⟩

theorem has_cons {k : κ} {value : ν} : has key ((k, value) :: t) = (k == key || has key t) := by
  simp only [has, get?]
  cases k == key
  all_goals rfl

theorem get?_map {μ : Type} (f : ν → μ) :
    get? key (t.map fun entry => (entry.1, f entry.2)) = (get? key t).map f := by
  induction t
  case nil => rfl
  case cons entry rest hi =>
    simp only [List.map_cons, get?, hi]
    split <;> rfl

theorem Distinct.map {μ : Type} (f : ν → μ) (distinct : Distinct t) :
    Distinct (t.map fun entry => (entry.1, f entry.2)) := by
  induction t
  case nil => trivial
  case cons entry rest hi =>
    apply And.intro _ (hi distinct.right)
    rw [get?_map, distinct.left]
    rfl

theorem mem_put {value : ν} {entry : κ × ν} (h : entry ∈ put key value t) :
    entry ∈ t ∨ entry.2 = value ∧ (entry.1 = key ∨ (entry.1 == key) = true ∧ ∃ v, (entry.1, v) ∈ t) := by
  induction t
  case nil =>
    cases List.mem_singleton.mp h
    exact .inr ⟨rfl, .inl rfl⟩
  case cons first rest hi =>
    have ⟨k, v⟩ := first
    simp only [put] at h
    split at h
    case isTrue same =>
      cases h
      case head => exact .inr ⟨rfl, .inr ⟨same, v, List.mem_cons_self⟩⟩
      case tail mem => exact .inl (List.mem_cons_of_mem _ mem)
    case isFalse =>
      cases h
      case head => exact .inl List.mem_cons_self
      case tail mem =>
        rcases hi mem with mem | ⟨eq, new | ⟨same, v, mem⟩⟩
        · exact .inl (List.mem_cons_of_mem _ mem)
        · exact .inr ⟨eq, .inl new⟩
        · exact .inr ⟨eq, .inr ⟨same, v, List.mem_cons_of_mem _ mem⟩⟩

theorem mem_putAll [LawfulBEq κ] {entries : List (κ × ν)} {entry : κ × ν} (h : entry ∈ putAll t entries) :
    entry ∈ t ∨ entry ∈ entries := by
  induction entries generalizing t
  case nil => exact .inl h
  case cons first rest hi =>
    rcases hi h with mem | mem
    · rcases mem_put mem with mem | ⟨value, key | ⟨same, _⟩⟩
      · exact .inl mem
      · exact .inr (Prod.ext key value ▸ List.mem_cons_self)
      · exact .inr (Prod.ext (eq_of_beq same) value ▸ List.mem_cons_self)
    · exact .inr (List.mem_cons_of_mem _ mem)

theorem mem_ofEntries [LawfulBEq κ] {entries : List (κ × ν)} {entry : κ × ν} (h : entry ∈ ofEntries entries) :
    entry ∈ entries :=
  (mem_putAll h).resolve_left (List.not_mem_nil)

theorem put_of_get?_eq_none {value : ν} (h : get? key t = none) : put key value t = t ++ [(key, value)] := by
  have apart := get?_eq_none_iff.mp h
  clear h
  induction t
  case nil => rfl
  case cons entry rest hi =>
    have ⟨here, others⟩ := List.forall_mem_cons.mp apart
    have ⟨k, v⟩ := entry
    rw [put, if_neg (by simp [here]), hi others]
    rfl

theorem get?_remove_of_ne [EquivBEq κ] {other : κ} (h : (key == other) = false) :
    get? other (remove key t) = get? other t := by
  induction t
  case nil => rfl
  case cons entry rest hi =>
    have ⟨k, _⟩ := entry
    simp only [remove]
    split
    case isTrue same =>
      have : (k == other) = false := by rw [← h]; exact BEq.congr_left same
      simp [get?, this]
    case isFalse => simp only [get?, hi]

theorem mem_of_mem_remove {entry : κ × ν} (h : entry ∈ remove key t) : entry ∈ t := by
  induction t
  case nil => exact h
  case cons first rest hi =>
    simp only [remove] at h
    split at h
    case isTrue => exact List.mem_cons_of_mem _ h
    case isFalse =>
      cases h
      case head => exact List.mem_cons_self
      case tail mem => exact List.mem_cons_of_mem _ (hi mem)

variable [EquivBEq κ]

theorem distinct_iff_pairwise : Distinct t ↔ t.Pairwise fun a b => (a.1 == b.1) = false := by
  induction t
  case nil => simp [Distinct]
  case cons entry rest hi =>
    simp only [Distinct, List.pairwise_cons, hi, get?_eq_none_iff]
    simp only [BEq.comm (b := entry.1)]

theorem putAll_of_distinct {entries : List (κ × ν)} (distinct : Distinct (t ++ entries)) :
    putAll t entries = t ++ entries := by
  induction entries generalizing t
  case nil => simp [putAll]
  case cons entry rest hi =>
    have new : get? entry.1 t = none := by
      have ⟨_, _, apart⟩ := List.pairwise_append.mp (distinct_iff_pairwise.mp distinct)
      exact get?_eq_none_iff.mpr fun other mem => apart other mem entry List.mem_cons_self
    calc
      putAll t (entry :: rest) = putAll (put entry.1 entry.2 t) rest := rfl
      _ = putAll (t ++ [entry]) rest := by rw [put_of_get?_eq_none new]
      _ = t ++ [entry] ++ rest := hi (by rwa [List.append_assoc])
      _ = t ++ entry :: rest := List.append_assoc ..

theorem ofEntries_of_distinct (distinct : Distinct t) : ofEntries t = t :=
  putAll_of_distinct (t := []) distinct

theorem Distinct.perm {t' : Table κ ν} (distinct : Distinct t) (h : t.Perm t') : Distinct t' := by
  rw [distinct_iff_pairwise] at distinct ⊢
  exact distinct.perm h fun differ => by rw [BEq.comm]; exact differ

theorem Distinct.nodup (distinct : Distinct t) : t.Nodup := by
  refine (distinct_iff_pairwise.mp distinct).imp fun {a b} differ => ?_
  intro same
  simp [same] at differ

theorem get?_of_mem {value : ν} (distinct : Distinct t) (mem : (key, value) ∈ t) :
    get? key t = some value := by
  induction t
  case nil => simp at mem
  case cons entry rest hi =>
    simp only [get?]
    cases mem
    case head => simp
    case tail mem =>
      have := get?_eq_none_iff.mp distinct.left _ mem
      rw [BEq.comm] at this
      simp [this, hi distinct.right mem]

theorem get?_eq_of_perm {t' : Table κ ν} (distinct : Distinct t) (perm : t.Perm t') :
    get? key t = get? key t' := by
  cases found : get? key t
  case none =>
    have absent := get?_eq_none_iff.mp found
    exact (get?_eq_none_iff.mpr fun entry mem => absent entry (perm.mem_iff.mpr mem)).symm
  case some value =>
    have ⟨k, mem, same⟩ := exists_mem_of_get? found
    rw [← get?_congr same, get?_of_mem (distinct.perm perm) (perm.mem_iff.mp mem)]

-- Tables that hold the same at every key have the same entries, if their keys are what they are equal
-- to.
theorem perm_of_get?_eq {t' : Table κ ν} (distinct : Distinct t) (distinct' : Distinct t')
    (same : ∀ key, get? key t = get? key t')
    (plain : ∀ entry ∈ t', ∀ key, (entry.1 == key) = true → entry.1 = key) : t.Perm t' := by
  refine (List.perm_ext_iff_of_nodup distinct.nodup distinct'.nodup).mpr fun ⟨key, value⟩ => ?_
  constructor
  case mp =>
    intro mem
    have found := get?_of_mem distinct mem
    rw [same] at found
    have ⟨k, mem', equal⟩ := exists_mem_of_get? found
    have : k = key := plain _ mem' key equal
    exact this ▸ mem'
  case mpr =>
    intro mem
    have found := get?_of_mem distinct' mem
    rw [← same] at found
    have ⟨k, mem', equal⟩ := exists_mem_of_get? found
    have : key = k := plain _ mem k (BEq.symm equal)
    exact this ▸ mem'

end SecretSync.Table
