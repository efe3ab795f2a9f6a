import SecretSync.Sorting.Run
import SecretSync.Sorting.Weaving

/-!
Sorting. The list is cut into runs, and neighbouring runs are merged until one is left. What comes before
what need not be an order: if it is none, as with keys that are no numbers, the result depends on which
elements are compared. Main statement: `perm_sort`.
-/

namespace SecretSync.Sorting

variable {α : Type}

-- Halves a number of elements until it is below 64. One is added if any of the numbers was odd. The
-- first number bounds the halvings.
def leastLength : Nat → Nat → Nat → Nat
  | 0, odd, count => count + odd
  | steps + 1, odd, count =>
    if count < 64 then count + odd else leastLength steps (max odd (count % 2)) (count / 2)

-- The place of the first binary digit in which two fractions of the same whole differ. The first
-- number bounds the places.
def firstDifference (whole : Nat) : Nat → Nat → Nat → Nat
  | 0, _, _ => 1
  | places + 1, a, b =>
    if whole ≤ a then firstDifference whole places (2 * (a - whole)) (2 * (b - whole)) + 1
    else if whole ≤ b then 1
    else firstDifference whole places (2 * a) (2 * b) + 1

structure Pile (α : Type) where
  size : Nat
  top : List α
  -- The other runs, the last one first, each with the rank of the border behind it.
  beneath : List (List α × Nat)
  -- How many elements in a row from the same run start a gallop.
  threshold : Nat

namespace Pile

def runs (pile : Pile α) : List (List α) := pile.top :: pile.beneath.map (·.1)

variable (before : α → α → Bool)

-- Merges the top with the runs beneath it whose border has a higher rank.
def settle (rank size : Nat) (top : List α) (threshold : Nat) : List (List α × Nat) → Pile α
  | [] => ⟨size, top, [], threshold⟩
  | (run, border) :: beneath =>
    if rank < border then
      let (top, threshold) := merge before threshold run top
      settle rank size top threshold beneath
    else ⟨size, top, (run, border) :: beneath, threshold⟩

-- Puts a run on top. The border between it and the run beneath ranks by where the middles of the
-- two lie in the whole.
def push (whole : Nat) (pile : Pile α) (run : List α) : Pile α :=
  let rank := firstDifference whole whole (2 * pile.size - pile.top.length)
    (2 * pile.size + run.length)
  let pile := settle before rank pile.size pile.top pile.threshold pile.beneath
  ⟨pile.size + run.length, run, (pile.top, rank) :: pile.beneath, pile.threshold⟩

-- Merges runs, given from the last to the first, until one is left. The run before the last is
-- merged with the shorter of its neighbours. The first number bounds the merges.
def collapse : Nat → Nat → List (List α) → List α
  | 0, _, runs => runs.reverse.flatten
  | merges + 1, threshold, runs =>
    match runs with
    | last :: run :: first :: rest =>
      if first.length < last.length then
        let (run, threshold) := merge before threshold first run
        collapse merges threshold (last :: run :: rest)
      else
        let (last, threshold) := merge before threshold run last
        collapse merges threshold (last :: first :: rest)
    | [last, run] => (merge before threshold run last).1
    | runs => runs.reverse.flatten

end Pile

variable (before : α → α → Bool)

def sort (items : List α) : List α :=
  match runs before (leastLength items.length 0 items.length) items.length items with
  | [] => []
  | run :: rest =>
    let pile := rest.foldl (Pile.push before items.length) ⟨run.length, run, [], worthwhile⟩
    Pile.collapse before rest.length pile.threshold pile.runs

/-! Sorting keeps the elements. -/

namespace Pile

theorem perm_merge_append (threshold : Nat) (run top rest : List α) :
    ((merge before threshold run top).1 ++ rest).Perm (top ++ (run ++ rest)) := by
  rw [← List.append_assoc]
  exact ((perm_merge before threshold run top).trans List.perm_append_comm).append_right rest

theorem perm_settle (rank size : Nat) (top : List α) (threshold : Nat)
    (beneath : List (List α × Nat)) :
    (settle before rank size top threshold beneath).runs.flatten.Perm
      (top :: beneath.map (·.1)).flatten := by
  induction beneath generalizing top threshold with
  | nil => exact .refl _
  | cons entry beneath ih =>
    unfold settle
    split
    · exact (ih _ _).trans (perm_merge_append before threshold entry.1 top _)
    · exact .refl _

theorem perm_push (whole : Nat) (pile : Pile α) (run : List α) :
    (pile.push before whole run).runs.flatten.Perm (run ++ pile.runs.flatten) := by
  exact (perm_settle before ..).append_left run

theorem perm_collapse (merges threshold : Nat) (runs : List (List α)) :
    (collapse before merges threshold runs).Perm runs.flatten := by
  induction merges generalizing threshold runs with
  | zero => exact (List.reverse_perm runs).flatten
  | succ merges ih =>
    unfold collapse
    split
    next last run first rest =>
      simp only
      split
      · exact (ih _ _).trans (.append_left last (perm_merge_append before threshold first run _))
      · exact (ih _ _).trans (perm_merge_append before threshold run last _)
    next last run =>
      simpa using perm_merge_append before threshold run last []
    · exact (List.reverse_perm _).flatten

end Pile

theorem perm_sort (items : List α) : (sort before items).Perm items := by
  have cut := perm_runs before (leastLength items.length 0 items.length) items.length items
  unfold sort
  split
  next none => simpa [none] using cut
  next run rest found =>
    rw [found] at cut
    refine (Pile.perm_collapse ..).trans (List.Perm.trans ?_ cut)
    suffices piled : ∀ (rest : List (List α)) (pile : Pile α),
        ((rest.foldl (Pile.push before items.length) pile).runs.flatten).Perm
          (pile.runs.flatten ++ rest.flatten) by
      simpa [Pile.runs] using piled rest ⟨run.length, run, [], worthwhile⟩
    intro rest
    induction rest with
    | nil => simp
    | cons run rest ih =>
      intro pile
      refine (ih _).trans ?_
      refine ((Pile.perm_push before items.length pile run).append_right _).trans ?_
      simp only [List.flatten_cons, List.append_assoc]
      exact List.perm_append_comm_assoc ..

end SecretSync.Sorting
