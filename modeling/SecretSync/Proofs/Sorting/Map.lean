import SecretSync.Sorting.Stable

/-!
Sorting sees elements only through the comparison. Elements that are sorted by what they stand for can
be sorted first or replaced by it first. Main statement: `sort_map`.
-/

namespace SecretSync.Sorting

variable {α β : Type} (f : α → β)

section

variable (way : Way) (passes : β → Bool)

theorem halve_map (steps : Nat) (items : List α) :
    halve way passes steps (items.map f) = halve way (fun a => passes (f a)) steps items := by
  induction steps generalizing items
  case zero => rfl
  case succ steps hi =>
    simp only [halve, List.length_map, ← List.map_drop, ← List.map_take]
    cases items.drop (way.middle items.length)
    case nil => rfl
    case cons => simp only [List.map_cons, hi]

theorem leap_map (steps gap : Nat) (items : List α) :
    leap way passes steps gap (items.map f) = leap way (fun a => passes (f a)) steps gap items := by
  induction steps generalizing gap items
  case zero => rfl
  case succ steps hi =>
    simp only [leap, List.length_map, ← List.map_drop, ← List.map_take]
    cases items.drop gap
    case nil => exact halve_map f way passes _ items
    case cons => simp only [List.map_cons, hi, halve_map]

theorem reach_map (items : List α) :
    reach way passes (items.map f) = reach way (fun a => passes (f a)) items := by
  cases items
  case nil => rfl
  case cons => simp only [reach, List.map_cons, List.length_map, leap_map]

end

section

variable (before : β → β → Bool)

theorem turnAround_map (a : α) (run rest : List α) :
    turnAround before (f a) (run.map f) (rest.map f) =
      (turnAround (fun a b => before (f a) (f b)) a run rest).map (List.map f) (List.map f) := by
  induction rest generalizing a run
  case nil => rfl
  case cons b rest hi =>
    have behind := hi b (a :: run)
    simp only [List.map_cons] at behind
    simp only [turnAround, List.map_cons, behind]
    split <;> rfl

theorem ascent_map (a : α) (rest : List α) :
    ascent before (f a) (rest.map f) =
      (ascent (fun a b => before (f a) (f b)) a rest).map (List.map f) (List.map f) := by
  induction rest generalizing a
  case nil => rfl
  case cons b rest hi =>
    simp only [ascent, List.map_cons, hi]
    split <;> rfl

theorem frontRun_map (a : α) (rest : List α) :
    frontRun before (f a) (rest.map f) =
      (frontRun (fun a b => before (f a) (f b)) a rest).map (List.map f) (List.map f) := by
  cases rest
  case nil => rfl
  case cons b rest =>
    have turned := turnAround_map f before b [a] rest
    have ascended := ascent_map f before a (b :: rest)
    simp only [List.map_cons, List.map_nil] at turned ascended
    simp only [frontRun, List.map_cons, turned, ascended]
    split <;> rfl

theorem insert_map (a : α) (items : List α) :
    insert before (f a) (items.map f) = (insert (fun a b => before (f a) (f b)) a items).map f := by
  simp [insert, halve_map]

theorem insertAll_map (sorted items : List α) :
    insertAll before (sorted.map f) (items.map f) =
      (insertAll (fun a b => before (f a) (f b)) sorted items).map f := by
  induction items generalizing sorted
  case nil => rfl
  case cons a items hi =>
    simp only [insertAll, List.map_cons, List.foldl_cons, insert_map] at hi ⊢
    exact hi _

theorem nextRun_map (least : Nat) (a : α) (rest : List α) :
    nextRun before least (f a) (rest.map f) =
      (nextRun (fun a b => before (f a) (f b)) least a rest).map (List.map f) (List.map f) := by
  simp only [nextRun, frontRun_map, Prod.map, List.length_map, ← List.map_take, ← List.map_drop,
    insertAll_map]

theorem runs_map (least bound : Nat) (items : List α) :
    runs before least bound (items.map f) =
      (runs (fun a b => before (f a) (f b)) least bound items).map (List.map f) := by
  induction bound generalizing items
  case zero =>
    cases items
    case nil => rfl
    case cons a rest =>
      have inserted := insertAll_map f before [] (a :: rest)
      simp only [List.map_cons, List.map_nil] at inserted
      simp only [runs, List.map_cons, List.map_nil, inserted]
  case succ bound hi =>
    cases items
    case nil => rfl
    case cons a rest => simp only [runs, List.map_cons, nextRun_map, Prod.map, hi]

end

namespace Weaving

def map (w : Weaving α) : Weaving β where
  woven := w.woven.map f
  kept := w.kept.map f
  other := w.other.map f

theorem isOver_map (w : Weaving α) : (w.map f).isOver = w.isOver := by
  have ⟨_, kept, other⟩ := w
  match kept, other with
  | [], _ | [_], _ | _ :: _ :: _, [] | _ :: _ :: _, _ :: _ => rfl

theorem result_map (w : Weaving α) : (w.map f).result = w.result.map f := by
  simp [map, result]

theorem takeKept_map (n : Nat) (w : Weaving α) : (w.map f).takeKept n = (w.takeKept n).map f := by
  simp [map, takeKept]

theorem takeOther_map (n : Nat) (w : Weaving α) : (w.map f).takeOther n = (w.takeOther n).map f := by
  simp [map, takeOther]

variable (before : β → β → Bool) (way : Way)

theorem step_map (keptRow otherRow : Nat) (w : Weaving α) :
    (w.map f).step before keptRow otherRow =
      (w.step (fun a b => before (f a) (f b)) keptRow otherRow).map (map f) id := by
  have ⟨woven, kept, other⟩ := w
  match kept, other with
  | [], _ | _ :: _, [] => rfl
  | a :: kept, b :: other =>
    have ofKept := takeKept_map f 1 ⟨woven, a :: kept, b :: other⟩
    have ofOther := takeOther_map f 1 ⟨woven, a :: kept, b :: other⟩
    simp only [map, List.map_cons] at ofKept ofOther
    simp only [step, map, List.map_cons, ofKept, ofOther]
    split <;> rfl

theorem gallopKept_map (w : Weaving α) :
    (w.map f).gallopKept before way =
      (w.gallopKept (fun a b => before (f a) (f b)) way).map (map f) id := by
  have ⟨woven, kept, other⟩ := w
  cases other
  case nil => rfl
  case cons b other =>
    have far := reach_map f way (fun a => !before (f b) a) kept
    simp only [gallopKept, Prod.map, ← takeKept_map, ← takeOther_map]
    simp only [map, List.map_cons, far, id]

theorem gallopOther_map (w : Weaving α) :
    (w.map f).gallopOther before way =
      (w.gallopOther (fun a b => before (f a) (f b)) way).map (map f) id := by
  have ⟨woven, kept, other⟩ := w
  cases kept
  case nil => rfl
  case cons a kept =>
    have far := reach_map f way (fun b => before b (f a)) other
    simp only [gallopOther, Prod.map, ← takeKept_map, ← takeOther_map]
    simp only [map, List.map_cons, far, id]

theorem gallop_map (w : Weaving α) :
    (w.map f).gallop before way =
      (w.gallop (fun a b => before (f a) (f b)) way).map (map f) id := by
  cases way
  all_goals
    simp only [gallop, gallopKept_map, gallopOther_map, Prod.map, isOver_map]
    split <;> rfl

theorem weave_map (rounds threshold : Nat) (pace : Pace) (w : Weaving α) :
    weave before way rounds threshold pace (w.map f) =
      (weave (fun a b => before (f a) (f b)) way rounds threshold pace w).map (List.map f) id := by
  induction rounds generalizing threshold pace w
  case zero => simp only [weave, result_map, Prod.map, id]
  case succ rounds hi =>
    simp only [weave, isOver_map]
    split
    case isTrue => simp only [result_map, Prod.map, id]
    case isFalse =>
      cases pace
      case step =>
        simp only [step_map, Prod.map, id, hi]
        split <;> rfl
      case gallop =>
        simp only [gallop_map, Prod.map, id, isOver_map, hi, result_map]
        split
        · rfl
        · split <;> rfl

theorem run_map (threshold : Nat) (kept other : List α) :
    run before way threshold (kept.map f) (other.map f) =
      (run (fun a b => before (f a) (f b)) way threshold kept other).map (List.map f) id := by
  have start := takeOther_map f 1 ⟨[], kept, other⟩
  simp only [map, List.map_nil] at start
  simp only [run, List.length_map, start]
  exact weave_map f before way _ _ _ _

end Weaving

variable (before : β → β → Bool)

theorem merge_map (threshold : Nat) (left right : List α) :
    merge before threshold (left.map f) (right.map f) =
      (merge (fun a b => before (f a) (f b)) threshold left right).map (List.map f) id := by
  cases right
  case nil => simp [merge]
  case cons b right =>
    cases last : left.getLast?
    case none => simp [merge, last]
    case some a =>
      have front := reach_map f .forward (fun x => !before (f b) x) left
      have back := reach_map f .backward (fun y => !before y (f a)) (b :: right).reverse
      have turned := Weaving.run_map f (fun x y => before y x) .backward
      simp only [merge, List.map_cons, List.getLast?_map, last, Option.map_some]
      simp only [← List.map_cons, front, back, List.length_map, ← List.map_drop, ← List.map_take,
        List.isEmpty_map, ← List.map_reverse, Weaving.run_map, turned]
      split
      case isTrue => simp only [Prod.map, List.map_append, id]
      case isFalse =>
        split
        all_goals simp only [Prod.map, List.map_append, List.map_reverse, id]

namespace Pile

def map (pile : Pile α) : Pile β where
  size := pile.size
  top := pile.top.map f
  beneath := pile.beneath.map (Prod.map (List.map f) id)
  threshold := pile.threshold

theorem runs_map (pile : Pile α) : (pile.map f).runs = pile.runs.map (List.map f) := by
  simp [map, runs]

theorem settle_map (rank size : Nat) (top : List α) (threshold : Nat)
    (beneath : List (List α × Nat)) :
    settle before rank size (top.map f) threshold (beneath.map (Prod.map (List.map f) id)) =
      (settle (fun a b => before (f a) (f b)) rank size top threshold beneath).map f := by
  induction beneath generalizing top threshold
  case nil => rfl
  case cons entry beneath hi =>
    simp only [settle, List.map_cons, Prod.map, id, merge_map, hi]
    split <;> rfl

theorem push_map (whole : Nat) (pile : Pile α) (run : List α) :
    (pile.map f).push before whole (run.map f) =
      (pile.push (fun a b => before (f a) (f b)) whole run).map f := by
  simp only [push, map, List.length_map, settle_map, List.map_cons, Prod.map, id]

theorem collapse_map (merges threshold : Nat) (runs : List (List α)) :
    collapse before merges threshold (runs.map (List.map f)) =
      (collapse (fun a b => before (f a) (f b)) merges threshold runs).map f := by
  induction merges generalizing threshold runs
  case zero => simp [collapse, List.map_flatten]
  case succ merges hi =>
    obtain _ | ⟨last, _ | ⟨run, _ | ⟨first, rest⟩⟩⟩ := runs
    · rfl
    · simp [collapse]
    · simp [collapse, merge_map]
    · simp only [collapse, List.map_cons, List.length_map, merge_map, Prod.map, id]
      split
      all_goals exact hi _ (_ :: _ :: rest)

end Pile

-- Sorting what elements stand for is sorting them by it.
theorem sort_map (items : List α) :
    sort before (items.map f) = (sort (fun a b => before (f a) (f b)) items).map f := by
  simp only [sort, List.length_map, runs_map]
  cases runs (fun a b => before (f a) (f b)) (leastLength items.length 0 items.length) items.length
      items
  case nil => rfl
  case cons run rest =>
    have piled (rest : List (List α)) (pile : Pile α) :
        (rest.map (List.map f)).foldl (Pile.push before items.length) (pile.map f) =
          (rest.foldl (Pile.push (fun a b => before (f a) (f b)) items.length) pile).map f := by
      induction rest generalizing pile
      case nil => rfl
      case cons run rest hi => simp only [List.map_cons, List.foldl_cons, Pile.push_map, hi]
    have start := piled rest ⟨run.length, run, [], worthwhile⟩
    simp only [Pile.map, List.map_nil] at start
    simp only [List.map_cons, List.length_map, start]
    exact (congrArg _ (Pile.runs_map f _)).trans (Pile.collapse_map f before _ _ _)

end SecretSync.Sorting
