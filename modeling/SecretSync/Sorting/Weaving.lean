import SecretSync.Sorting.Reach

/-!
Weaving two runs into one. Elements are taken from the front of either run, one at a time, or, once many
in a row came from the same run, as many as halving finds. From the back, the same is done with both runs
turned around and the order too. Main statement: `perm_merge`.
-/

namespace SecretSync.Sorting

variable {α : Type}

-- Two runs in weaving. Of two elements of which neither comes before the other, the one that is
-- kept goes first.
structure Weaving (α : Type) where
  -- What is woven, the last element first.
  woven : List α
  kept : List α
  other : List α

-- How elements are taken: one at a time, after so many in a row from either run, or at a gallop.
inductive Pace where
  | step (keptRow otherRow : Nat)
  | gallop

-- As many elements in a row from the same run make a gallop worth going on with.
def worthwhile : Nat := 7

namespace Weaving

def takeKept (n : Nat) (w : Weaving α) : Weaving α :=
  { w with woven := (w.kept.take n).reverse ++ w.woven, kept := w.kept.drop n }

def takeOther (n : Nat) (w : Weaving α) : Weaving α :=
  { w with woven := (w.other.take n).reverse ++ w.woven, other := w.other.drop n }

-- Whether nothing is left to compare. The last kept element is known to go behind all others.
def isOver (w : Weaving α) : Bool :=
  match w.kept, w.other with
  | _ :: _ :: _, _ :: _ => false
  | _, _ => true

def result (w : Weaving α) : List α := w.woven.reverse ++ (w.other ++ w.kept)

variable (before : α → α → Bool) (way : Way)

def step (keptRow otherRow : Nat) (w : Weaving α) : Weaving α × Nat × Nat :=
  match w.kept, w.other with
  | a :: _, b :: _ =>
    if before b a then (w.takeOther 1, 0, otherRow + 1) else (w.takeKept 1, keptRow + 1, 0)
  | _, _ => (w, keptRow, otherRow)

-- Takes the kept elements that the first other one does not come before, and that one. Tells how
-- many they were.
def gallopKept (w : Weaving α) : Weaving α × Nat :=
  match w.other with
  | b :: _ =>
    let n := reach way (fun a => !before b a) w.kept
    ((w.takeKept n).takeOther 1, n)
  | [] => (w, 0)

def gallopOther (w : Weaving α) : Weaving α × Nat :=
  match w.kept with
  | a :: _ =>
    let n := reach way (fun b => before b a) w.other
    ((w.takeOther n).takeKept 1, n)
  | [] => (w, 0)

-- Gallops over either run once: first over the one that stands in front. Tells the larger of the
-- two numbers.
def gallop (w : Weaving α) : Weaving α × Nat :=
  match way with
  | .forward =>
    let (w, n) := w.gallopKept before way
    if w.isOver then (w, n)
    else
      let (w, m) := w.gallopOther before way
      (w, max n m)
  | .backward =>
    let (w, n) := w.gallopOther before way
    if w.isOver then (w, n)
    else
      let (w, m) := w.gallopKept before way
      (w, max n m)

-- Weaves to the end. As many elements in a row as the threshold tells start a gallop. Going on with
-- it lowers the threshold, and giving it up raises it. Gives the threshold that is left. The first
-- number bounds the rounds.
def weave : Nat → Nat → Pace → Weaving α → List α × Nat
  | 0, threshold, _, w => (w.result, threshold)
  | rounds + 1, threshold, pace, w =>
    if w.isOver then (w.result, threshold)
    else
      match pace with
      | .step keptRow otherRow =>
        let (w, keptRow, otherRow) := w.step before keptRow otherRow
        if threshold ≤ max keptRow otherRow then weave rounds threshold .gallop w
        else weave rounds threshold (.step keptRow otherRow) w
      | .gallop =>
        let (w, n) := w.gallop before way
        if w.isOver then (w.result, threshold)
        else if worthwhile ≤ n then weave rounds (max 1 (threshold - 1)) .gallop w
        else weave rounds (threshold + 1) (.step 0 0) w

def run (threshold : Nat) (kept other : List α) : List α × Nat :=
  weave before way (kept.length + other.length) threshold (.step 0 0)
    (takeOther 1 ⟨[], kept, other⟩)

end Weaving

namespace Weaving

theorem isOver_iff {w : Weaving α} : w.isOver = true ↔ w.other = [] ∨ w.kept.length ≤ 1 := by
  obtain ⟨woven, kept, other⟩ := w
  match kept, other with
  | [], _ => simp [isOver]
  | [_], _ => simp [isOver]
  | _ :: _ :: _, [] => simp [isOver]
  | _ :: _ :: _, _ :: _ => simp [isOver]

/-! Weaving keeps the elements. -/

theorem perm_takeKept (n : Nat) (w : Weaving α) : (w.takeKept n).result.Perm w.result := by
  simp only [result, takeKept, List.reverse_append, List.reverse_reverse, List.append_assoc]
  refine .append_left _ ((List.perm_append_comm_assoc ..).trans (.append_left _ ?_))
  exact .of_eq (List.take_append_drop n w.kept)

theorem result_takeOther (n : Nat) (w : Weaving α) : (w.takeOther n).result = w.result := by
  simp only [result, takeOther, List.reverse_append, List.reverse_reverse, List.append_assoc]
  rw [← List.append_assoc (w.other.take n), List.take_append_drop]

variable (before : α → α → Bool) (way : Way)

theorem perm_step (keptRow otherRow : Nat) (w : Weaving α) :
    (w.step before keptRow otherRow).1.result.Perm w.result := by
  unfold step
  split
  · split
    · exact .of_eq (result_takeOther 1 w)
    · exact perm_takeKept 1 w
  · exact .refl _

theorem perm_gallopKept (w : Weaving α) : (w.gallopKept before way).1.result.Perm w.result := by
  unfold gallopKept
  split
  · exact (List.Perm.of_eq (result_takeOther 1 _)).trans (perm_takeKept _ w)
  · exact .refl _

theorem perm_gallopOther (w : Weaving α) : (w.gallopOther before way).1.result.Perm w.result := by
  unfold gallopOther
  split
  · exact (perm_takeKept 1 _).trans (.of_eq (result_takeOther _ w))
  · exact .refl _

theorem perm_gallop (w : Weaving α) : (w.gallop before way).1.result.Perm w.result := by
  unfold gallop
  split
  · simp only
    split
    · exact perm_gallopKept before _ w
    · exact (perm_gallopOther before _ _).trans (perm_gallopKept before _ w)
  · simp only
    split
    · exact perm_gallopOther before _ w
    · exact (perm_gallopKept before _ _).trans (perm_gallopOther before _ w)

theorem perm_weave (rounds threshold : Nat) (pace : Pace) (w : Weaving α) :
    (weave before way rounds threshold pace w).1.Perm w.result := by
  induction rounds generalizing threshold pace w with
  | zero => exact .refl _
  | succ rounds ih =>
    unfold weave
    split
    · exact .refl _
    · split
      · simp only
        split <;> exact (ih ..).trans (perm_step ..)
      · simp only
        split
        · exact perm_gallop before way w
        · split <;> exact (ih ..).trans (perm_gallop before way w)

theorem perm_run (threshold : Nat) (kept other : List α) :
    (run before way threshold kept other).1.Perm (kept ++ other) := by
  refine (perm_weave ..).trans ?_
  rw [result_takeOther]
  exact (List.perm_append_comm : (other ++ kept).Perm (kept ++ other))

end Weaving

variable (before : α → α → Bool)

-- Weaves two neighbouring runs. What the second run goes behind anyway stays in front, and what
-- goes behind the first run anyway stays at the end. The shorter of what is left between them is
-- kept. Takes and gives the threshold of a gallop.
def merge (threshold : Nat) (left right : List α) : List α × Nat :=
  match right, left.getLast? with
  | b :: _, some a =>
    let front := reach .forward (fun x => !before b x) left
    let back := right.length - reach .backward (fun y => !before y a) right.reverse
    let middleLeft := left.drop front
    let middleRight := right.take back
    if middleLeft.isEmpty || middleRight.isEmpty then (left ++ right, threshold)
    else
      let (middle, threshold) :=
        if middleLeft.length ≤ middleRight.length then
          Weaving.run before .forward threshold middleLeft middleRight
        else
          let (middle, threshold) := Weaving.run (fun x y => before y x) .backward threshold
            middleRight.reverse middleLeft.reverse
          (middle.reverse, threshold)
      (left.take front ++ (middle ++ right.drop back), threshold)
  | _, _ => (left ++ right, threshold)

theorem perm_merge (threshold : Nat) (left right : List α) :
    (merge before threshold left right).1.Perm (left ++ right) := by
  unfold merge
  split
  next b behind a found =>
    generalize reach .forward (fun x => !before b x) left = front
    generalize (b :: behind).length - reach .backward _ (b :: behind).reverse = back
    simp only
    split
    · exact .refl _
    · suffices middle : ∀ woven : List α, woven.Perm (left.drop front ++ (b :: behind).take back) →
          (left.take front ++ (woven ++ (b :: behind).drop back)).Perm (left ++ b :: behind) by
        split
        · exact middle _ (Weaving.perm_run ..)
        · refine middle _ ((List.reverse_perm _).trans ((Weaving.perm_run ..).trans ?_))
          exact ((List.reverse_perm _).append (List.reverse_perm _)).trans List.perm_append_comm
      intro woven same
      refine (((same.append_right _).append_left _)).trans (.of_eq ?_)
      rw [List.append_assoc, List.take_append_drop, ← List.append_assoc, List.take_append_drop]
  · exact .refl _

end SecretSync.Sorting
