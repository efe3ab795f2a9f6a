import Mathlib.Data.List.MinMax
import Mathlib.Data.List.Nodup
import SecretSync.Sorting.Stable

/-!
The latest of the elements of a list that count is the first of those that are as late. Sorting by time does not
change it, and at different times no other order does. Main statements: `filter_sort`, `latest?_sort`,
`latest?_eq_some_iff`, `latest?_perm`.
-/

namespace SecretSync.Sorting

variable {α : Type} {items : List α}

section

variable {before : α → α → Bool} (w : IsWeak before) (p : α → Bool)
include w

theorem filter_place (sorted : IsSorted before items) (a : α) :
    (place before a items).filter p = if p a then place before a (items.filter p) else items.filter p := by
  induction items
  case nil => simp [place, List.filter_cons]
  case cons b rest hi =>
    obtain ⟨least, others⟩ := List.pairwise_cons.mp sorted
    rw [place]
    split
    case isTrue comes =>
      -- What is left stands behind `b`, so that the element is put in front of it.
      have front : place before a ((b :: rest).filter p) = a :: (b :: rest).filter p := by
        cases left : (b :: rest).filter p
        case nil => rfl
        case cons c _ =>
          have mem : c ∈ b :: rest := List.mem_of_mem_filter (left ▸ List.mem_cons_self)
          have first : before a c = true := by
            rcases List.mem_cons.mp mem with same | behind
            case inl => exact same ▸ comes
            case inr => exact (w.cotrans c comes).resolve_right (by simp [least c behind])
          rw [place, if_pos first]
      rw [front, List.filter_cons]
    case isFalse stays =>
      rw [List.filter_cons, List.filter_cons, hi others]
      cases p b
      case false => rfl
      case true =>
        cases p a
        case false => rfl
        case true => simp [place, stays]

theorem filter_placeAll (others : List α) (sorted : IsSorted before items) :
    (placeAll before items others).filter p = placeAll before (items.filter p) (others.filter p) := by
  induction others generalizing items
  case nil => rfl
  case cons a others hi =>
    rw [placeAll_cons, hi (sorted.place w a), filter_place w p sorted, List.filter_cons]
    split <;> rfl

theorem filter_sort (items : List α) : (sort before items).filter p = sort before (items.filter p) := by
  rw [sort_eq_placeAll w, sort_eq_placeAll w]
  exact filter_placeAll w p items .nil

end

variable {β : Type} [LinearOrder β] (time : α → β)

-- The order of the times.
def earlier (a b : α) : Bool := time a < time b

theorem isWeak_earlier : IsWeak (earlier time) where
  asymm h := decide_eq_false (lt_asymm (of_decide_eq_true h))
  cotrans {a b} c h := by
    have less : time a < time b := of_decide_eq_true h
    rcases lt_or_ge (time a) (time c) with later | earlier
    case inl => exact .inl (decide_eq_true later)
    case inr => exact .inr (decide_eq_true (earlier.trans_lt less))

theorem argmax_place (a : α) (items : List α) :
    (place (earlier time) a items).argmax time = (items ++ [a]).argmax time := by
  induction items
  case nil => rfl
  case cons b rest hi =>
    rw [place]
    split
    case isFalse => rw [List.cons_append, List.argmax_cons, List.argmax_cons, hi]
    case isTrue comes =>
      rw [List.argmax_cons, List.argmax_concat]
      cases greatest : (b :: rest).argmax time
      case none => cases List.argmax_eq_none.mp greatest
      case some c =>
        have less : time a < time c :=
          (of_decide_eq_true comes).trans_le (List.le_of_mem_argmax List.mem_cons_self greatest)
        simp only [less, less.not_gt, if_true, if_false]

theorem argmax_append_congr {items others : List α} (same : items.argmax time = others.argmax time)
    (rest : List α) : (items ++ rest).argmax time = (others ++ rest).argmax time := by
  rw [List.argmax, List.foldl_append, List.argmax, List.foldl_append]
  exact congrArg (rest.foldl _) same

theorem argmax_placeAll (items others : List α) :
    (placeAll (earlier time) items others).argmax time = (items ++ others).argmax time := by
  induction others generalizing items
  case nil => rw [List.append_nil]; rfl
  case cons a others hi =>
    rw [placeAll_cons, hi, argmax_append_congr time (argmax_place time a items)]
    simp

theorem argmax_sort (items : List α) : (sort (earlier time) items).argmax time = items.argmax time := by
  rw [sort_eq_placeAll (isWeak_earlier time), argmax_placeAll, List.nil_append]

variable (Counts : α → Prop)

-- The latest of the elements that count, the first one of those that are as late.
structure IsLatest (items : List α) (a : α) : Prop where
  counts : Counts a
  parts  : ∃ front back, items = front ++ a :: back ∧ (∀ b ∈ front, Counts b → time b < time a) ∧
    ∀ b ∈ back, Counts b → time b ≤ time a

def latest? [DecidablePred Counts] (items : List α) : Option α :=
  (items.filter (Counts ·)).argmax time

theorem latest?_sort [DecidablePred Counts] (items : List α) :
    latest? time Counts (sort (earlier time) items) = latest? time Counts items := by
  rw [latest?, filter_sort (isWeak_earlier time), argmax_sort]
  rfl

variable {time Counts} {a : α}

theorem IsLatest.mem (h : IsLatest time Counts items a) : a ∈ items := by
  obtain ⟨_, _, eq, _⟩ := h.parts
  simp [eq]

theorem IsLatest.le (h : IsLatest time Counts items a) {b : α} (mem : b ∈ items) (counts : Counts b) :
    time b ≤ time a := by
  obtain ⟨front, back, eq, before, after⟩ := h.parts
  rw [eq, List.mem_append, List.mem_cons] at mem
  rcases mem with mem | same | mem
  case inl => exact (before b mem counts).le
  case inr.inl => rw [same]
  case inr.inr => exact after b mem counts

theorem isLatest_cons_iff {b : α} : IsLatest time Counts (b :: items) a ↔
    (Counts b ∧ a = b ∧ ∀ c ∈ items, Counts c → time c ≤ time b) ∨
    (IsLatest time Counts items a ∧ (Counts b → time b < time a)) := by
  constructor
  case mp =>
    intro h
    obtain ⟨front, back, eq, before, after⟩ := h.parts
    cases front
    case nil =>
      obtain ⟨same, rest⟩ := List.cons.inj eq
      exact .inl ⟨same ▸ h.counts, same.symm, fun c mem => same ▸ after c (rest ▸ mem)⟩
    case cons first front =>
      obtain ⟨same, rest⟩ := List.cons.inj eq
      have ⟨least, others⟩ := List.forall_mem_cons.mp before
      exact .inr ⟨⟨h.counts, front, back, rest, others, after⟩, same ▸ least⟩
  case mpr =>
    intro h
    rcases h with ⟨counts, same, least⟩ | ⟨latest, less⟩
    case inl => exact ⟨same ▸ counts, [], items, same ▸ rfl, List.forall_mem_nil _, same ▸ least⟩
    case inr =>
      obtain ⟨front, back, eq, before, after⟩ := latest.parts
      exact ⟨latest.counts, b :: front, back, eq ▸ rfl, List.forall_mem_cons.mpr ⟨less, before⟩, after⟩

variable [DecidablePred Counts]

theorem latest?_eq_none_iff : latest? time Counts items = none ↔ ∀ a ∈ items, ¬Counts a := by
  simp [latest?]

theorem latest?_cons_of_not {b : α} (h : ¬Counts b) :
    latest? time Counts (b :: items) = latest? time Counts items := by
  simp [latest?, h]

theorem latest?_cons {b : α} (h : Counts b) : latest? time Counts (b :: items) =
    match latest? time Counts items with
    | none => some b
    | some c => if time b < time c then some c else some b := by
  have kept : (b :: items).filter (Counts ·) = b :: items.filter (Counts ·) := by simp [h]
  rw [latest?, kept, List.argmax_cons, latest?]
  cases (items.filter (Counts ·)).argmax time
  all_goals rfl

theorem latest?_eq_some_iff : latest? time Counts items = some a ↔ IsLatest time Counts items a := by
  induction items generalizing a
  case nil =>
    constructor
    case mp => exact fun h => nomatch h
    case mpr => exact fun h => nomatch h.mem
  case cons b rest hi =>
    rw [isLatest_cons_iff]
    by_cases counts : Counts b
    case neg => simp [latest?_cons_of_not counts, counts, hi]
    case pos =>
      rw [latest?_cons counts]
      cases greatest : latest? time Counts rest
      case none =>
        have idle := latest?_eq_none_iff.mp greatest
        have absent : ¬IsLatest time Counts rest a := fun latest => idle a latest.mem latest.counts
        simp only [counts, absent, Option.some.injEq, true_and, false_and, or_false]
        exact ⟨fun eq => ⟨eq.symm, fun c mem held => absurd held (idle c mem)⟩, fun h => h.left.symm⟩
      case some c =>
        have latest := hi.mp greatest
        have only : IsLatest time Counts rest a ↔ a = c := by
          rw [← hi, greatest, Option.some.injEq, eq_comm]
        simp only [only, counts, true_and, forall_const]
        split
        case isTrue later =>
          rw [Option.some.injEq]
          constructor
          case mp => exact fun eq => .inr ⟨eq.symm, eq ▸ later⟩
          case mpr =>
            intro h
            rcases h with ⟨_, least⟩ | ⟨same, _⟩
            case inl => exact absurd (least c latest.mem latest.counts) later.not_ge
            case inr => exact same.symm
        case isFalse stays =>
          rw [Option.some.injEq]
          constructor
          case mp =>
            exact fun eq => .inl ⟨eq.symm, fun d mem held => (latest.le mem held).trans (le_of_not_gt stays)⟩
          case mpr =>
            intro h
            rcases h with ⟨same, _⟩ | ⟨same, later⟩
            case inl => exact same.symm
            case inr => exact absurd (same ▸ later) stays

-- At different times the order of the elements does not matter.
theorem latest?_perm {others : List α} (perm : others.Perm items) (apart : (items.map time).Nodup) :
    latest? time Counts others = latest? time Counts items := by
  cases latest : latest? time Counts items
  case none =>
    rw [latest?_eq_none_iff] at latest ⊢
    exact fun a mem => latest a (perm.mem_iff.mp mem)
  case some a =>
    rw [latest?_eq_some_iff] at latest
    cases other : latest? time Counts others
    case none => exact absurd latest.counts (latest?_eq_none_iff.mp other a (perm.mem_iff.mpr latest.mem))
    case some b =>
      rw [latest?_eq_some_iff] at other
      have mem : b ∈ items := perm.mem_iff.mp other.mem
      have least : time b ≤ time a := latest.le mem other.counts
      have most : time a ≤ time b := other.le (perm.mem_iff.mpr latest.mem) latest.counts
      rw [List.inj_on_of_nodup_map apart mem latest.mem (least.antisymm most)]

end SecretSync.Sorting
