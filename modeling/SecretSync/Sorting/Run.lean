import SecretSync.Sorting.Reach

/-!
Runs: parts of a list in ascending order. What descends or ascends at the front is taken as it is, and
if that is too short, the elements behind it are put in by halving. What comes before what need not be
an order: if it is none, as with keys that are no numbers, the runs depend on which elements are
compared. Main statement: `perm_runs`.
-/

namespace SecretSync.Sorting

variable {α : Type} (before : α → α → Bool)

-- Turns a descent around: as long as the next element comes before the first of the run, it is put
-- in front of it. Gives the run and the elements left.
def turnAround (a : α) (run : List α) : List α → List α × List α
  | [] => (a :: run, [])
  | b :: rest => if before b a then turnAround b (a :: run) rest else (a :: run, b :: rest)

-- The elements at the front none of which comes before the one ahead of it, and the elements left.
def ascent (a : α) : List α → List α × List α
  | [] => ([a], [])
  | b :: rest =>
    if before b a then ([a], b :: rest)
    else
      let (run, left) := ascent b rest
      (a :: run, left)

def frontRun (a : α) : List α → List α × List α
  | [] => ([a], [])
  | b :: rest => if before b a then turnAround before b [a] rest else ascent before a (b :: rest)

-- Puts an element in behind those that it does not come before, as halving finds them.
def insert (a : α) (items : List α) : List α :=
  let place := halve .forward (fun b => !before a b) items.length items
  items.take place ++ a :: items.drop place

def insertAll (sorted items : List α) : List α :=
  items.foldl (fun sorted a => insert before a sorted) sorted

-- The run at the front, made up to the least length, and the elements left.
def nextRun (least : Nat) (a : α) (rest : List α) : List α × List α :=
  let (run, left) := frontRun before a rest
  (insertAll before run (left.take (least - run.length)), left.drop (least - run.length))

-- Cuts a list into runs. The last number bounds how many there are, the last one apart.
def runs (least : Nat) : Nat → List α → List (List α)
  | _, [] => []
  | 0, items => [insertAll before [] items]
  | bound + 1, a :: rest =>
    let (run, left) := nextRun before least a rest
    run :: runs least bound left

/-! The runs hold the elements of the list. -/

theorem perm_turnAround (a : α) (run rest : List α) :
    ((turnAround before a run rest).1 ++ (turnAround before a run rest).2).Perm
      (a :: run ++ rest) := by
  induction rest generalizing a run with
  | nil => exact .of_eq rfl
  | cons b rest ih =>
    unfold turnAround
    split
    · exact (ih b (a :: run)).trans List.perm_middle.symm
    · exact .refl _

theorem ascent_append (a : α) (rest : List α) :
    (ascent before a rest).1 ++ (ascent before a rest).2 = a :: rest := by
  induction rest generalizing a with
  | nil => rfl
  | cons b rest ih =>
    unfold ascent
    split
    · rfl
    · exact congrArg (a :: ·) (ih b)

theorem perm_frontRun (a : α) (rest : List α) :
    ((frontRun before a rest).1 ++ (frontRun before a rest).2).Perm (a :: rest) := by
  unfold frontRun
  split
  · exact .refl _
  next b rest =>
    split
    · exact (perm_turnAround before b [a] rest).trans (.swap a b rest)
    · exact .of_eq (ascent_append before a (b :: rest))

theorem perm_insert (a : α) (items : List α) : (insert before a items).Perm (a :: items) :=
  List.perm_middle.trans (.cons a (.of_eq (List.take_append_drop _ items)))

theorem perm_insertAll (sorted items : List α) :
    (insertAll before sorted items).Perm (sorted ++ items) := by
  induction items generalizing sorted with
  | nil => simp [insertAll]
  | cons a rest ih =>
    exact (ih _).trans (((perm_insert before a sorted).append_right rest).trans
      List.perm_middle.symm)

theorem perm_nextRun (least : Nat) (a : α) (rest : List α) :
    ((nextRun before least a rest).1 ++ (nextRun before least a rest).2).Perm (a :: rest) := by
  have found := perm_frontRun before a rest
  unfold nextRun
  generalize frontRun before a rest = cut at found ⊢
  refine ((perm_insertAll before _ _).append_right _).trans ?_
  rw [List.append_assoc, List.take_append_drop]
  exact found

theorem perm_runs (least bound : Nat) (items : List α) :
    (runs before least bound items).flatten.Perm items := by
  induction bound generalizing items with
  | zero =>
    cases items with
    | nil => exact .refl _
    | cons a rest => simpa [runs] using perm_insertAll before [] (a :: rest)
  | succ bound ih =>
    cases items with
    | nil => exact .refl _
    | cons a rest =>
      exact ((ih _).append_left _).trans (perm_nextRun before least a rest)

end SecretSync.Sorting
