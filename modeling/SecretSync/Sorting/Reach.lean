/-!
How far a test reaches into a list: the number of elements at the front that pass, if all that pass
stand in front of all that do not. Not every element is looked at, so on another list the number depends
on which ones are. Main statements: `halve_append`, `reach_append`.
-/

namespace SecretSync.Sorting

variable {α : Type}

inductive Way where
  | forward
  | backward
deriving DecidableEq

-- The number of elements ahead of the middle one. Of the two in the middle of an even number, it is
-- the one nearer to the end of the whole.
def Way.middle : Way → Nat → Nat
  | .forward, count => count / 2
  | .backward, count => (count - 1) / 2

theorem Way.middle_lt (way : Way) {count : Nat} (h : 0 < count) : way.middle count < count := by
  cases way <;> simp only [middle] <;> omega

variable (way : Way) (passes : α → Bool)

-- The number of elements that pass, found by looking at the middle one and then into the half that
-- is left. The number given bounds the halvings.
def halve : Nat → List α → Nat
  | 0, _ => 0
  | steps + 1, items =>
    match items.drop (way.middle items.length) with
    | [] => 0
    | a :: rest =>
      if passes a then way.middle items.length + 1 + halve steps rest
      else halve steps (items.take (way.middle items.length))

-- The number of elements that pass, found by leaps: over `gap` elements, and over twice as many and
-- one more with each leap. What lies between the last two elements looked at is halved. The first
-- number bounds the leaps.
def leap : Nat → Nat → List α → Nat
  | 0, _, _ => 0
  | steps + 1, gap, items =>
    match items.drop gap with
    | [] => halve way passes items.length items
    | a :: rest =>
      if passes a then gap + 1 + leap steps (2 * gap + 1) rest
      else halve way passes gap (items.take gap)

-- The number of elements that pass, looked for near the front first.
def reach : List α → Nat
  | [] => 0
  | a :: rest => if passes a then leap way passes rest.length 0 rest + 1 else 0

/-! Where all that pass stand in front, their number is found. -/

variable {passes}

theorem take_drop_cases (n : Nat) (items : List α) :
    (items.drop n = [] ∧ items.length ≤ n) ∨
      ∃ ahead a rest, items.take n = ahead ∧ items.drop n = a :: rest ∧
        items = ahead ++ a :: rest ∧ ahead.length = n := by
  cases found : items.drop n with
  | nil => exact .inl ⟨rfl, List.drop_eq_nil_iff.1 found⟩
  | cons a rest =>
    refine .inr ⟨_, a, rest, rfl, rfl, found ▸ (List.take_append_drop n items).symm, ?_⟩
    have lengths := congrArg List.length found
    rw [List.length_drop, List.length_cons] at lengths
    rw [List.length_take]
    omega

theorem split_at {front back ahead rest : List α} {a : α}
    (whole : front ++ back = ahead ++ a :: rest) (pass : ∀ x ∈ front, passes x = true)
    (fail : ∀ x ∈ back, passes x = false) :
    (passes a = true → ∃ front', front = ahead ++ a :: front' ∧ rest = front' ++ back) ∧
      (passes a = false → ∃ back', ahead = front ++ back' ∧ back = back' ++ a :: rest) := by
  rcases List.append_eq_append_iff.1 whole with ⟨between, hahead, hback⟩ | ⟨between, hfront, hrest⟩
  · refine ⟨fun h => ?_, fun _ => ⟨between, hahead, hback⟩⟩
    have := fail a (hback ▸ List.mem_append_right _ (List.mem_cons_self ..))
    simp [this] at h
  · cases between with
    | nil =>
      simp only [List.append_nil, List.nil_append] at hfront hrest
      refine ⟨fun h => ?_, fun _ => ⟨[], by simp [hfront], by simp [hrest]⟩⟩
      have := fail a (hrest ▸ List.mem_cons_self ..)
      simp [this] at h
    | cons b front' =>
      obtain ⟨rfl, left⟩ := List.cons.inj hrest
      refine ⟨fun _ => ⟨front', hfront, left⟩, fun h => ?_⟩
      have := pass a (hfront ▸ List.mem_append_right _ (List.mem_cons_self ..))
      simp [this] at h

theorem eq_nil_of_bound {front back : List α} (bound : (front ++ back).length ≤ 0) : front = [] :=
  (List.append_eq_nil_iff.1 (List.eq_nil_of_length_eq_zero (Nat.le_zero.1 bound))).1

theorem halve_append (steps : Nat) {front back : List α} (pass : ∀ x ∈ front, passes x = true)
    (fail : ∀ x ∈ back, passes x = false) (bound : (front ++ back).length ≤ steps) :
    halve way passes steps (front ++ back) = front.length := by
  induction steps generalizing front back with
  | zero => rw [eq_nil_of_bound bound, halve, List.length_nil]
  | succ steps ih =>
    unfold halve
    rcases take_drop_cases (way.middle (front ++ back).length) (front ++ back) with
      ⟨missing, short⟩ | ⟨ahead, a, rest, first, behind, whole, count⟩
    · have none : (front ++ back).length ≤ 0 :=
        Nat.not_lt.1 fun h => absurd (way.middle_lt h) (Nat.not_lt.2 short)
      rw [missing, eq_nil_of_bound none, List.length_nil]
    · have lengths := congrArg List.length whole
      rw [@List.length_append _ ahead, List.length_cons] at lengths
      rw [behind, first, ← count]
      obtain ⟨inside, outside⟩ := split_at whole pass fail
      simp only
      split
      next h =>
        obtain ⟨front', rfl, rfl⟩ := inside h
        rw [ih (fun x hx => pass x (by simp [hx])) fail (by omega)]
        simp only [List.length_append, List.length_cons]
        omega
      next h =>
        obtain ⟨back', rfl, rfl⟩ := outside (Bool.eq_false_iff.2 h)
        exact ih pass (fun x hx => fail x (List.mem_append_left _ hx)) (by omega)

theorem leap_append (steps gap : Nat) {front back : List α} (pass : ∀ x ∈ front, passes x = true)
    (fail : ∀ x ∈ back, passes x = false) (bound : (front ++ back).length ≤ steps) :
    leap way passes steps gap (front ++ back) = front.length := by
  induction steps generalizing gap front back with
  | zero => rw [eq_nil_of_bound bound, leap, List.length_nil]
  | succ steps ih =>
    unfold leap
    rcases take_drop_cases gap (front ++ back) with
      ⟨missing, _⟩ | ⟨ahead, a, rest, first, behind, whole, count⟩
    · rw [missing]
      exact halve_append way _ pass fail (Nat.le_refl _)
    · have lengths := congrArg List.length whole
      rw [@List.length_append _ ahead, List.length_cons] at lengths
      rw [behind, first]
      obtain ⟨inside, outside⟩ := split_at whole pass fail
      simp only
      split
      next h =>
        obtain ⟨front', rfl, rfl⟩ := inside h
        rw [ih _ (fun x hx => pass x (by simp [hx])) fail (by omega)]
        simp only [List.length_append, List.length_cons]
        omega
      next h =>
        obtain ⟨back', rfl, rfl⟩ := outside (Bool.eq_false_iff.2 h)
        exact halve_append way gap pass (fun x hx => fail x (List.mem_append_left _ hx))
          (Nat.le_of_eq count)

theorem reach_append {front back : List α} (pass : ∀ x ∈ front, passes x = true)
    (fail : ∀ x ∈ back, passes x = false) : reach way passes (front ++ back) = front.length := by
  cases front with
  | nil =>
    cases back with
    | nil => rfl
    | cons b back => simp [reach, fail b (List.mem_cons_self ..)]
  | cons a front =>
    simp only [List.cons_append, reach, pass a (List.mem_cons_self ..), if_true, List.length_cons]
    rw [leap_append way _ 0 (fun x hx => pass x (List.mem_cons_of_mem _ hx)) fail (Nat.le_refl _)]

end SecretSync.Sorting
