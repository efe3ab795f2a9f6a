import SecretSync.Sorting
import SecretSync.Sorting.Order

/-!
Sorting by an order in which not coming before is transitive. Which elements are compared then no longer
matters, and elements of which neither comes before the other stay as they were. Main statements:
`sort_eq_placeAll`, `isSorted_sort`.
-/

namespace SecretSync.Sorting

variable {α : Type} {before : α → α → Bool}

/-! Runs. -/

theorem insert_eq_place (w : IsWeak before) (a : α) {items : List α} (h : IsSorted before items) :
    insert before a items = place before a items := by
  obtain ⟨front, back, rfl, pass, fail⟩ := h.split_not_before w a
  unfold insert
  rw [halve_append _ _ pass fail (Nat.le_refl _)]
  simp only [List.take_left, List.drop_left]
  rw [place_append_of_not_before back fun x hx => by simpa using pass x hx]
  cases back with
  | nil => rfl
  | cons b back => simp [place, show before a b = true by simpa using fail b (by simp)]

theorem insertAll_eq_placeAll (w : IsWeak before) (items : List α) {sorted : List α}
    (h : IsSorted before sorted) :
    insertAll before sorted items = placeAll before sorted items := by
  induction items generalizing sorted with
  | nil => rfl
  | cons a rest ih =>
    simp only [insertAll, placeAll, List.foldl_cons]
    rw [insert_eq_place w a h]
    exact ih (h.place w a)

theorem turnAround_eq_placeAll (w : IsWeak before) (a : α) (run rest : List α)
    (h : IsSorted before (a :: run)) :
    IsSorted before (turnAround before a run rest).1 ∧
      placeAll before (turnAround before a run rest).1 (turnAround before a run rest).2 =
        placeAll before (a :: run) rest := by
  induction rest generalizing a run with
  | nil => exact ⟨h, rfl⟩
  | cons b rest ih =>
    unfold turnAround
    split
    next comes =>
      have first : place before b (a :: run) = b :: a :: run := by simp [place, comes]
      rw [placeAll_cons, first]
      exact ih b (a :: run) (first ▸ h.place w b)
    · exact ⟨h, rfl⟩

theorem ascent_eq_placeAll (w : IsWeak before) (a : α) (front rest : List α)
    (h : IsSorted before (front ++ [a])) :
    IsSorted before (front ++ (ascent before a rest).1) ∧
      placeAll before (front ++ (ascent before a rest).1) (ascent before a rest).2 =
        placeAll before (front ++ [a]) rest := by
  induction rest generalizing a front with
  | nil => exact ⟨h, rfl⟩
  | cons b rest ih =>
    unfold ascent
    split
    · exact ⟨h, rfl⟩
    next stays =>
      have stays : before b a = false := Bool.eq_false_iff.2 stays
      have last : place before b (front ++ [a]) = front ++ [a] ++ [b] := by
        refine place_eq_append fun x hx => ?_
        rcases List.mem_append.1 hx with hx | hx
        · exact w.trans_not stays ((List.pairwise_append.1 h).2.2 x hx a (List.mem_singleton.2 rfl))
        · exact List.mem_singleton.1 hx ▸ stays
      have found := ih b (front ++ [a]) (last ▸ h.place w b)
      rw [placeAll_cons, last]
      simpa using found

theorem frontRun_eq_placeAll (w : IsWeak before) (a : α) (rest : List α) :
    IsSorted before (frontRun before a rest).1 ∧
      placeAll before (frontRun before a rest).1 (frontRun before a rest).2 =
        placeAll before [a] rest := by
  unfold frontRun
  split
  · exact ⟨List.pairwise_singleton .., rfl⟩
  next b rest =>
    split
    next comes =>
      have first : place before b [a] = [b, a] := by simp [place, comes]
      rw [placeAll_cons, first]
      exact turnAround_eq_placeAll w b [a] rest
        (first ▸ IsSorted.place w b (List.pairwise_singleton ..))
    · exact ascent_eq_placeAll w a [] (b :: rest) (List.pairwise_singleton ..)

theorem nextRun_eq_placeAll (w : IsWeak before) (least : Nat) (a : α) (rest : List α) :
    IsSorted before (nextRun before least a rest).1 ∧
      placeAll before (nextRun before least a rest).1 (nextRun before least a rest).2 =
        placeAll before [a] rest := by
  obtain ⟨sorted, same⟩ := frontRun_eq_placeAll w a rest
  unfold nextRun
  generalize frontRun before a rest = cut at sorted same ⊢
  simp only
  rw [insertAll_eq_placeAll w _ sorted, ← placeAll_append, List.take_append_drop]
  exact ⟨sorted.placeAll w _, same⟩

theorem alike_runs (w : IsWeak before) (least bound : Nat) (items : List α) :
    (∀ run ∈ runs before least bound items, IsSorted before run) ∧
      Alike before (runs before least bound items).flatten items := by
  induction bound generalizing items with
  | zero =>
    cases items with
    | nil => exact ⟨by simp [runs], rfl⟩
    | cons a rest =>
      have put := insertAll_eq_placeAll w (a :: rest) .nil
      refine ⟨by simpa [runs, put] using IsSorted.placeAll w (a :: rest) .nil, ?_⟩
      simpa [runs, put, Alike] using placeAll_placeAll w [] (a :: rest)
  | succ bound ih =>
    cases items with
    | nil => exact ⟨by simp [runs], rfl⟩
    | cons a rest =>
      obtain ⟨sorted, same⟩ := nextRun_eq_placeAll w least a rest
      unfold runs
      generalize nextRun before least a rest = cut at sorted same ⊢
      obtain ⟨others, alike⟩ := ih cut.2
      refine ⟨by simpa using ⟨sorted, others⟩, ?_⟩
      refine (Alike.append w (rfl : Alike before cut.1 cut.1) alike).trans ?_
      rw [placeAll_append, placeAll_nil sorted]
      exact same

/-! Weaving. -/

namespace Weaving

-- Both runs are sorted, and the last kept element goes behind all others.
structure Ready (before : α → α → Bool) (w : Weaving α) : Prop where
  kept : IsSorted before w.kept
  other : IsSorted before w.other
  last : ∀ a, w.kept.getLast? = some a → ∀ b ∈ w.other, before b a = true

-- What is woven, and behind it what is kept with the other elements put in.
def settled (before : α → α → Bool) (w : Weaving α) : List α :=
  w.woven.reverse ++ placeAll before w.kept w.other

def left (w : Weaving α) : Nat := w.kept.length + w.other.length

theorem left_takeKept_le (n : Nat) (w : Weaving α) : (w.takeKept n).left ≤ w.left := by
  simp only [left, takeKept, List.length_drop]
  omega

theorem left_takeOther_le (n : Nat) (w : Weaving α) : (w.takeOther n).left ≤ w.left := by
  simp only [left, takeOther, List.length_drop]
  omega

theorem Ready.takeKept {w : Weaving α} (h : w.Ready before) (n : Nat) :
    (w.takeKept n).Ready before where
  kept := h.kept.sublist (List.drop_sublist ..)
  other := h.other
  last a ha := h.last a (by
    simp only [Weaving.takeKept, List.getLast?_drop] at ha
    split at ha
    · simp at ha
    · exact ha)

theorem Ready.takeOther {w : Weaving α} (h : w.Ready before) (n : Nat) :
    (w.takeOther n).Ready before where
  kept := h.kept
  other := h.other.sublist (List.drop_sublist ..)
  last a ha b hb := h.last a ha b (List.mem_of_mem_drop hb)

theorem settled_takeKept {n : Nat} {w : Weaving α}
    (h : ∀ a ∈ w.kept.take n, ∀ b ∈ w.other, before b a = false) :
    (w.takeKept n).settled before = w.settled before := by
  have put := placeAll_append_of_not_before (w.kept.drop n) h
  rw [List.take_append_drop] at put
  simp [settled, takeKept, put]

theorem settled_takeOther {n : Nat} {w : Weaving α} (ready : w.Ready before)
    (h : ∀ b ∈ w.other.take n, ∀ a ∈ w.kept.head?, before b a = true) :
    (w.takeOther n).settled before = w.settled before := by
  have parts := ready.other
  rw [← List.take_append_drop n w.other] at parts
  obtain ⟨sorted, _, ordered⟩ := List.pairwise_append.1 parts
  have put : placeAll before w.kept (w.other.take n) = w.other.take n ++ w.kept := by
    cases hk : w.kept with
    | nil => rw [placeAll_nil sorted, List.append_nil]
    | cons a rest =>
      have comes : ∀ b ∈ w.other.take n, before b a = true := fun b hb => h b hb a (by simp [hk])
      have := placeAll_append_of_before [] rest comes
      rwa [placeAll_nil sorted, List.nil_append] at this
  have whole : placeAll before w.kept w.other =
      w.other.take n ++ placeAll before w.kept (w.other.drop n) := by
    conv => lhs; rw [← List.take_append_drop n w.other, placeAll_append, put]
    exact placeAll_append_of_not_before w.kept ordered
  simp [settled, takeOther, whole]

theorem result_eq_settled {w : Weaving α} (ready : w.Ready before) (h : w.isOver = true) :
    w.result = w.settled before := by
  unfold result settled
  refine congrArg _ ?_
  rcases isOver_iff.1 h with h | h
  · rw [h]
    rfl
  · match hk : w.kept, h with
    | [], _ => rw [placeAll_nil ready.other, List.append_nil]
    | [a], _ =>
      have := placeAll_append_of_before [] [] (ready.last a (by simp [hk]))
      rwa [placeAll_nil ready.other, List.nil_append, eq_comm] at this

-- A move of the weaving: it keeps what is settled, and takes an element.
structure Moves (before : α → α → Bool) (w w' : Weaving α) : Prop where
  ready : w'.Ready before
  settled : w'.settled before = w.settled before
  less : w'.left < w.left

theorem Moves.trans {w w' w'' : Weaving α} (h : Moves before w w') (k : Moves before w' w'') :
    Moves before w w'' :=
  ⟨k.ready, k.settled.trans h.settled, Nat.lt_trans k.less h.less⟩

theorem moves_takeOther {w : Weaving α} (ready : w.Ready before) {b : α} {others : List α}
    (hb : w.other = b :: others) (h : ∀ a ∈ w.kept.head?, before b a = true) :
    Moves before w (w.takeOther 1) where
  ready := ready.takeOther 1
  settled := settled_takeOther ready (by simpa [hb] using h)
  less := by simp [left, takeOther, hb]

theorem moves_takeKept {w : Weaving α} (ready : w.Ready before) {a : α} {rest : List α}
    (ha : w.kept = a :: rest) (h : ∀ b ∈ w.other, before b a = false) :
    Moves before w (w.takeKept 1) where
  ready := ready.takeKept 1
  settled := settled_takeKept (by simpa [ha] using h)
  less := by
    simp only [left, takeKept, ha, List.length_drop, List.length_cons]
    omega

-- What the first other element does not come before, no other element does.
theorem Ready.not_before (weak : IsWeak before) {w : Weaving α} (ready : w.Ready before) {b : α}
    {others : List α} (hb : w.other = b :: others) {a : α} (h : before b a = false) :
    ∀ c ∈ w.other, before c a = false := by
  have sorted := ready.other
  rw [hb] at sorted ⊢
  intro c hc
  rcases List.mem_cons.1 hc with rfl | hc
  · exact h
  · exact weak.trans_not ((List.pairwise_cons.1 sorted).1 c hc) h

theorem moves_step (weak : IsWeak before) {w : Weaving α} (ready : w.Ready before)
    (h : w.isOver = false) (keptRow otherRow : Nat) :
    Moves before w (w.step before keptRow otherRow).1 := by
  unfold step
  split
  next a rest b others ha hb =>
    split
    next comes => exact moves_takeOther ready hb (by simpa [ha] using comes)
    next stays =>
      exact moves_takeKept ready ha (ready.not_before weak hb (Bool.eq_false_iff.2 stays))
  next none =>
    rw [Bool.eq_false_iff, Ne, isOver_iff, not_or] at h
    cases hk : w.kept with
    | nil => simp [hk] at h
    | cons a rest =>
      cases ho : w.other with
      | nil => exact absurd ho h.1
      | cons b others => exact (none _ _ _ _ hk ho).elim

theorem moves_gallopKept (weak : IsWeak before) (way : Way) {w : Weaving α}
    (ready : w.Ready before) (h : w.isOver = false) :
    Moves before w (w.gallopKept before way).1 := by
  unfold gallopKept
  split
  next b others hb =>
    obtain ⟨front, back, hk, pass, fail⟩ := ready.kept.split_not_before weak b
    simp only
    rw [hk, reach_append way pass fail]
    have first : (w.takeKept front.length).settled before = w.settled before :=
      settled_takeKept fun a ha => ready.not_before weak hb (by
        rw [hk, List.take_left] at ha
        simpa using pass a ha)
    have next := moves_takeOther (ready.takeKept front.length) hb fun a ha => by
      simp only [Weaving.takeKept, hk, List.drop_left] at ha
      simpa using fail a (List.mem_of_mem_head? ha)
    exact ⟨next.ready, next.settled.trans first,
      Nat.lt_of_lt_of_le next.less (left_takeKept_le ..)⟩
  next none => simp [isOver, none] at h

theorem moves_gallopOther (weak : IsWeak before) (way : Way) {w : Weaving α}
    (ready : w.Ready before) (h : w.isOver = false) :
    Moves before w (w.gallopOther before way).1 := by
  unfold gallopOther
  split
  next a rest ha =>
    obtain ⟨front, back, ho, pass, fail⟩ := ready.other.split_before weak a
    simp only
    rw [ho, reach_append way pass fail]
    have first : (w.takeOther front.length).settled before = w.settled before :=
      settled_takeOther ready fun b hb => by
        rw [ho, List.take_left] at hb
        simpa [ha] using pass b hb
    have next := moves_takeKept (ready.takeOther front.length) ha fun b hb => by
      simp only [Weaving.takeOther, ho, List.drop_left] at hb
      exact fail b hb
    exact ⟨next.ready, next.settled.trans first,
      Nat.lt_of_lt_of_le next.less (left_takeOther_le ..)⟩
  next none => simp [isOver, none] at h

theorem moves_gallop (weak : IsWeak before) (way : Way) {w : Weaving α}
    (ready : w.Ready before) (h : w.isOver = false) : Moves before w (w.gallop before way).1 := by
  unfold gallop
  split
  · have first := moves_gallopKept weak .forward ready h
    simp only
    split
    · exact first
    next on => exact first.trans (moves_gallopOther weak _ first.ready (Bool.eq_false_iff.2 on))
  · have first := moves_gallopOther weak .backward ready h
    simp only
    split
    · exact first
    next on => exact first.trans (moves_gallopKept weak _ first.ready (Bool.eq_false_iff.2 on))

theorem weave_eq_settled (weak : IsWeak before) (way : Way) (rounds threshold : Nat) (pace : Pace)
    {w : Weaving α} (ready : w.Ready before) (bound : w.left ≤ rounds) :
    (weave before way rounds threshold pace w).1 = w.settled before := by
  induction rounds generalizing threshold pace w with
  | zero =>
    refine result_eq_settled ready ?_
    have : w.other = [] := List.eq_nil_of_length_eq_zero (by unfold left at bound; omega)
    simp [isOver, this]
  | succ rounds ih =>
    unfold weave
    split
    next h => exact result_eq_settled ready h
    next h =>
      have h := Bool.eq_false_iff.2 h
      split
      next keptRow otherRow =>
        have moved := moves_step weak ready h keptRow otherRow
        have := moved.less
        simp only
        split <;> exact (ih _ _ moved.ready (by omega)).trans moved.settled
      · have moved := moves_gallop weak way ready h
        have := moved.less
        simp only
        split
        next ended => exact (result_eq_settled moved.ready ended).trans moved.settled
        · split <;> exact (ih _ _ moved.ready (by omega)).trans moved.settled

theorem run_eq_placeAll (weak : IsWeak before) (way : Way) (threshold : Nat) {kept other : List α}
    (hk : IsSorted before kept) (ho : IsSorted before other)
    (last : ∀ a, kept.getLast? = some a → ∀ b ∈ other, before b a = true)
    (first : ∀ b ∈ other.head?, ∀ a ∈ kept, before b a = true) :
    (run before way threshold kept other).1 = placeAll before kept other := by
  have ready : Ready before ⟨[], kept, other⟩ := ⟨hk, ho, last⟩
  unfold run
  refine (weave_eq_settled weak way _ _ _ (ready.takeOther 1) (left_takeOther_le 1 _)).trans ?_
  refine (settled_takeOther ready fun b hb a ha => ?_).trans (List.nil_append _)
  refine first b ?_ a (List.mem_of_mem_head? ha)
  cases other with
  | nil => simp at hb
  | cons c others => simpa [eq_comm] using hb

end Weaving

theorem reverse_run_turned (w : IsWeak before) (way : Way) (threshold : Nat) {kept other : List α}
    (hk : IsSorted before kept) (ho : IsSorted before other)
    (last : ∀ a ∈ kept.getLast?, ∀ b ∈ other, before b a = true)
    (first : ∀ b ∈ other.head?, ∀ a ∈ kept, before b a = true) :
    (Weaving.run (fun x y => before y x) way threshold other.reverse kept.reverse).1.reverse =
      placeAll before kept other := by
  rw [Weaving.run_eq_placeAll w.turned way threshold ho.turned hk.turned]
  · exact reverse_placeAll_turned w hk ho
  · intro b hb a ha
    exact first b (by simpa using hb) a (List.mem_reverse.1 ha)
  · intro a ha b hb
    exact last a (by simpa using ha) b (List.mem_reverse.1 hb)

theorem merge_eq_placeAll (w : IsWeak before) (threshold : Nat) {left right : List α}
    (hl : IsSorted before left) (hr : IsSorted before right) :
    (merge before threshold left right).1 = placeAll before left right := by
  unfold merge
  split
  next b others a final =>
    obtain ⟨ahead, leftEnd, hleft, pass, fail⟩ := hl.split_not_before w b
    obtain ⟨behind, start, hright, pass', fail'⟩ := hr.turned.split_not_before w.turned a
    have front : reach .forward (fun x => !before b x) left = ahead.length := by
      rw [hleft]
      exact reach_append _ pass fail
    have back : (b :: others).length -
        reach .backward (fun y => !before y a) (b :: others).reverse = start.reverse.length := by
      have := congrArg List.length hright
      rw [hright, reach_append .backward pass' fail']
      simp only [List.length_reverse, List.length_append] at this ⊢
      omega
    have hright : b :: others = start.reverse ++ behind.reverse := by
      simpa using congrArg List.reverse hright
    rw [front, back]
    generalize hs : start.reverse = rightStart at hright ⊢
    have inFront : ∀ x ∈ ahead, ∀ y ∈ b :: others, before y x = false := fun x hx y hy => by
      have : before b x = false := by simpa using pass x hx
      rcases List.mem_cons.1 hy with rfl | hy
      · exact this
      · exact w.trans_not ((List.pairwise_cons.1 hr).1 y hy) this
    have atEnd : ∀ x ∈ left, ∀ y ∈ behind.reverse, before y x = false := fun x hx y hy => by
      have : before y a = false := by simpa using pass' y (List.mem_reverse.1 hy)
      obtain ⟨most, rfl⟩ := List.getLast?_eq_some_iff.1 final
      rcases List.mem_append.1 hx with hx | hx
      · exact w.trans_not this ((List.pairwise_append.1 hl).2.2 x hx a (List.mem_singleton.2 rfl))
      · exact List.mem_singleton.1 hx ▸ this
    have comes : ∀ x ∈ leftEnd, before b x = true := fun x hx => by simpa using fail x hx
    have goes : ∀ y ∈ rightStart, before y a = true := fun y hy => by
      simpa using fail' y (List.mem_reverse.1 (hs ▸ hy))
    have dropped : left.drop ahead.length = leftEnd := by rw [hleft, List.drop_left]
    have taken : (b :: others).take rightStart.length = rightStart := by
      rw [hright, List.take_left]
    simp only [dropped, taken]
    split
    next none =>
      simp only [Bool.or_eq_true, List.isEmpty_iff] at none
      refine (placeAll_eq_append hr fun x hx y hy => ?_).symm
      rcases none with none | none
      · rw [hleft, none, List.append_nil] at hx
        exact inFront x hx y hy
      · rw [hright, none, List.nil_append] at hy
        exact atEnd x hx y hy
    next some =>
      simp only [Bool.or_eq_true, List.isEmpty_iff, not_or] at some
      have sortedEnd : IsSorted before leftEnd :=
        hl.sublist (hleft ▸ List.sublist_append_right ..)
      obtain ⟨sortedStart, sortedBehind, ordered⟩ := List.pairwise_append.1 (hright ▸ hr)
      have last : ∀ x ∈ leftEnd.getLast?, ∀ y ∈ rightStart, before y x = true := fun x hx y hy => by
        rw [hleft, List.getLast?_append, hx, Option.some_or] at final
        exact Option.some.inj final ▸ goes y hy
      have first : ∀ y ∈ rightStart.head?, ∀ x ∈ leftEnd, before y x = true := fun y hy x hx => by
        have head := congrArg List.head? hright
        rw [List.head?_append, hy, Option.some_or] at head
        exact Option.some.inj head ▸ comes x hx
      have middle : placeAll before left (b :: others) =
          ahead ++ (placeAll before leftEnd rightStart ++ behind.reverse) := by
        rw [hleft, placeAll_append_of_not_before _ inFront, hright, placeAll_append]
        refine congrArg _ (placeAll_eq_append sortedBehind fun x hx y hy => ?_)
        rcases mem_placeAll.1 hx with hx | hx
        · exact atEnd x (hleft ▸ List.mem_append_right _ hx) y hy
        · exact ordered x hx y hy
      have kept : left.take ahead.length = ahead := by rw [hleft, List.take_left]
      have rest : (b :: others).drop rightStart.length = behind.reverse := by
        rw [hright, List.drop_left]
      rw [middle, kept, rest]
      split
      · rw [Weaving.run_eq_placeAll w .forward threshold sortedEnd sortedStart last first]
      · rw [reverse_run_turned w .backward threshold sortedEnd sortedStart last first]
  next right _ _ none =>
    cases right with
    | nil => exact List.append_nil left
    | cons b others =>
      cases found : left.getLast? with
      | some a => exact (none b others a rfl found).elim
      | none => rw [List.getLast?_eq_none_iff.1 found, placeAll_nil hr, List.nil_append]

/-! The pile. -/

theorem alike_merge (w : IsWeak before) (threshold : Nat) {left right : List α}
    (hl : IsSorted before left) (hr : IsSorted before right) :
    IsSorted before (merge before threshold left right).1 ∧
      Alike before (merge before threshold left right).1 (left ++ right) := by
  rw [merge_eq_placeAll w threshold hl hr]
  refine ⟨hl.placeAll w right, ?_⟩
  unfold Alike
  rw [placeAll_nil (hl.placeAll w right), placeAll_append, placeAll_nil hl]

namespace Pile

-- Whether runs, given from the last to the first, are sorted and sort to what the list sorts to.
structure Holds (before : α → α → Bool) (runs : List (List α)) (items : List α) : Prop where
  sorted : ∀ run ∈ runs, IsSorted before run
  alike : Alike before runs.reverse.flatten items

theorem Holds.merged (w : IsWeak before) (threshold : Nat) (above : List (List α))
    {left right : List α} {beneath : List (List α)} {items : List α}
    (h : Holds before (above ++ right :: left :: beneath) items) :
    Holds before (above ++ (merge before threshold left right).1 :: beneath) items := by
  obtain ⟨sorted, alike⟩ := alike_merge w threshold
    (h.sorted left (by simp)) (h.sorted right (by simp))
  refine ⟨fun run hrun => ?_, Eq.trans ?_ h.alike⟩
  · rcases List.mem_append.1 hrun with hrun | hrun
    · exact h.sorted run (List.mem_append_left _ hrun)
    · rcases List.mem_cons.1 hrun with rfl | hrun
      · exact sorted
      · exact h.sorted run (by simp [hrun])
  · have whole := Alike.append w (rfl : Alike before beneath.reverse.flatten _)
      (alike.append w (rfl : Alike before above.reverse.flatten _))
    simpa [Alike] using whole

theorem holds_settle (w : IsWeak before) (rank size : Nat) (top : List α) (threshold : Nat)
    (beneath : List (List α × Nat)) {items : List α}
    (h : Holds before (top :: beneath.map (·.1)) items) :
    Holds before (settle before rank size top threshold beneath).runs items := by
  induction beneath generalizing top threshold with
  | nil => exact h
  | cons entry beneath ih =>
    unfold settle
    split
    · exact ih _ _ (h.merged w threshold [])
    · exact h

variable (before) in
theorem length_settle_le (rank size : Nat) (top : List α) (threshold : Nat)
    (beneath : List (List α × Nat)) :
    (settle before rank size top threshold beneath).runs.length ≤ beneath.length + 1 := by
  induction beneath generalizing top threshold with
  | nil => exact Nat.le_refl _
  | cons entry beneath ih =>
    unfold settle
    split
    · exact Nat.le_succ_of_le (ih _ _)
    · simp [runs]

variable (before) in
theorem length_push_le (whole : Nat) (pile : Pile α) (run : List α) :
    (pile.push before whole run).runs.length ≤ pile.runs.length + 1 := by
  have settled := length_settle_le before
    (firstDifference whole whole (2 * pile.size - pile.top.length) (2 * pile.size + run.length))
    pile.size pile.top pile.threshold pile.beneath
  simp only [push, runs, List.length_cons, List.length_map] at settled ⊢
  exact Nat.succ_le_succ settled

theorem holds_push (w : IsWeak before) (whole : Nat) (pile : Pile α) {run items : List α}
    (h : Holds before pile.runs items) (sorted : IsSorted before run) :
    Holds before (pile.push before whole run).runs (items ++ run) := by
  have settled := holds_settle w
    (firstDifference whole whole (2 * pile.size - pile.top.length) (2 * pile.size + run.length))
    pile.size pile.top pile.threshold pile.beneath h
  refine ⟨fun other hother => ?_, ?_⟩
  · rcases List.mem_cons.1 hother with rfl | hother
    · exact sorted
    · exact settled.sorted other hother
  · have := settled.alike.append w (rfl : Alike before run run)
    simpa [push, runs] using this

theorem collapse_eq_placeAll (w : IsWeak before) (merges threshold : Nat) {runs : List (List α)}
    {items : List α} (h : Holds before runs items) (bound : runs.length ≤ merges + 1) :
    collapse before merges threshold runs = placeAll before [] items := by
  have single : ∀ runs : List (List α), Holds before runs items → runs.length ≤ 1 →
      runs.reverse.flatten = placeAll before [] items := fun runs h short => by
    rw [← h.alike]
    match runs, short, h with
    | [], _, _ => rfl
    | [run], _, h => simpa using (placeAll_nil (h.sorted run (by simp))).symm
  induction merges generalizing threshold runs with
  | zero => exact single runs h bound
  | succ merges ih =>
    unfold collapse
    split
    next last run first rest =>
      simp only [List.length_cons] at bound
      simp only
      split
      · exact ih _ (h.merged w threshold [last]) (by simpa using by omega)
      · exact ih _ (h.merged w threshold []) (by simpa using by omega)
    next last run =>
      simpa using single _ (h.merged w threshold []) (by simp)
    next more two =>
      match runs, more, two with
      | [], _, _ => exact single [] h (Nat.zero_le _)
      | [run], _, _ => exact single [run] h (Nat.le_refl _)
      | [last, run], _, two => exact (two _ _ rfl).elim
      | last :: run :: first :: rest, more, _ => exact (more _ _ _ _ rfl).elim

end Pile

-- Sorting is putting in one element after the other, each behind those that it does not come
-- before.
theorem sort_eq_placeAll (w : IsWeak before) (items : List α) :
    sort before items = placeAll before [] items := by
  obtain ⟨sorted, alike⟩ := alike_runs w (leastLength items.length 0 items.length) items.length items
  unfold sort
  split
  next none =>
    rw [none] at alike
    exact alike
  next run rest found =>
    rw [found] at sorted alike
    suffices piled : ∀ (rest : List (List α)) (pile : Pile α) (part : List α),
        Pile.Holds before pile.runs part → (∀ run ∈ rest, IsSorted before run) →
        Pile.Holds before (rest.foldl (Pile.push before items.length) pile).runs
            (part ++ rest.flatten) ∧
          (rest.foldl (Pile.push before items.length) pile).runs.length ≤
            rest.length + pile.runs.length by
      have first : Pile.Holds before [run] run := ⟨by simpa using sorted run (by simp), by simp [Alike]⟩
      obtain ⟨holds, bound⟩ := piled rest ⟨run.length, run, [], worthwhile⟩ run first
        fun run hrun => sorted run (List.mem_cons_of_mem _ hrun)
      rw [Pile.collapse_eq_placeAll w _ _ holds bound]
      exact alike
    intro rest
    induction rest with
    | nil => exact fun pile part h _ => ⟨by simpa using h, by simp⟩
    | cons run rest ih =>
      intro pile part h sorted
      obtain ⟨holds, bound⟩ := ih _ _
        (Pile.holds_push w items.length pile h (sorted run (List.mem_cons_self ..)))
        fun run hrun => sorted run (List.mem_cons_of_mem _ hrun)
      have pushed := Pile.length_push_le before items.length pile run
      refine ⟨by simpa using holds, Nat.le_trans bound ?_⟩
      rw [List.length_cons]
      omega

theorem isSorted_sort (w : IsWeak before) (items : List α) : IsSorted before (sort before items) := by
  rw [sort_eq_placeAll w]
  exact IsSorted.placeAll w items .nil

end SecretSync.Sorting
