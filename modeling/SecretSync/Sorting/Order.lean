/-!
Orders in which not coming before is transitive, and sorting by putting in one element after the other,
each behind those that it does not come before. Main statements: `IsSorted.placeAll`, `placeAll_placeAll`.
-/

namespace SecretSync.Sorting

variable {α : Type} (before : α → α → Bool)

-- An order in which not coming before is transitive.
structure IsWeak : Prop where
  asymm : ∀ {a b : α}, before a b = true → before b a = false
  cotrans : ∀ {a b : α} (c : α), before a b = true → before a c = true ∨ before c b = true

variable {before}

theorem IsWeak.trans_not (w : IsWeak before) {a b c : α} (h : before a b = false)
    (k : before b c = false) : before a c = false := by
  refine Bool.eq_false_iff.2 fun comes => ?_
  rcases w.cotrans b comes with h' | k'
  · exact Bool.eq_false_iff.1 h h'
  · exact Bool.eq_false_iff.1 k k'

variable (before) in
def IsSorted (items : List α) : Prop := items.Pairwise fun a b => before b a = false

variable (before) in
-- Puts an element in front of the first one that it comes before.
def place (a : α) : List α → List α
  | [] => [a]
  | b :: rest => if before a b then a :: b :: rest else b :: place a rest

variable (before) in
def placeAll (sorted items : List α) : List α :=
  items.foldl (fun sorted a => place before a sorted) sorted

theorem placeAll_cons (a : α) (sorted rest : List α) :
    placeAll before sorted (a :: rest) = placeAll before (place before a sorted) rest := rfl

theorem mem_place {a x : α} {items : List α} : x ∈ place before a items ↔ x = a ∨ x ∈ items := by
  induction items with
  | nil => simp [place]
  | cons b rest ih =>
    unfold place
    split
    · simp
    · simp only [List.mem_cons, ih]
      exact or_left_comm

theorem place_append_of_before {a b : α} (h : before a b = true) (front rest : List α) :
    place before a (front ++ b :: rest) = place before a front ++ b :: rest := by
  induction front with
  | nil => simp [place, h]
  | cons x front ih =>
    simp only [List.cons_append, place, ih]
    split <;> rfl

theorem place_append_of_not_before {a : α} {front : List α} (rest : List α)
    (h : ∀ x ∈ front, before a x = false) :
    place before a (front ++ rest) = front ++ place before a rest := by
  induction front with
  | nil => rfl
  | cons x front ih =>
    simp [place, h x (List.mem_cons_self ..), ih fun y hy => h y (List.mem_cons_of_mem _ hy)]

theorem place_eq_append {a : α} {items : List α} (h : ∀ x ∈ items, before a x = false) :
    place before a items = items ++ [a] := by
  simpa [place] using place_append_of_not_before [] h

theorem IsSorted.place (w : IsWeak before) (a : α) {items : List α} (h : IsSorted before items) :
    IsSorted before (place before a items) := by
  induction items with
  | nil => simp [IsSorted, Sorting.place]
  | cons b rest ih =>
    obtain ⟨least, sorted⟩ := List.pairwise_cons.1 h
    unfold Sorting.place
    split
    next comes =>
      refine List.pairwise_cons.2 ⟨fun x hx => ?_, h⟩
      rcases List.mem_cons.1 hx with rfl | hx
      · exact w.asymm comes
      · exact w.trans_not (least x hx) (w.asymm comes)
    next stays =>
      refine List.pairwise_cons.2 ⟨fun x hx => ?_, ih sorted⟩
      rcases mem_place.1 hx with rfl | hx
      · exact Bool.eq_false_iff.2 stays
      · exact least x hx

theorem IsSorted.placeAll (w : IsWeak before) (items : List α) {sorted : List α}
    (h : IsSorted before sorted) : IsSorted before (placeAll before sorted items) := by
  induction items generalizing sorted with
  | nil => exact h
  | cons a rest ih => exact ih (h.place w a)

theorem mem_placeAll {x : α} {sorted items : List α} :
    x ∈ placeAll before sorted items ↔ x ∈ sorted ∨ x ∈ items := by
  induction items generalizing sorted with
  | nil => simp [placeAll]
  | cons a rest ih =>
    rw [placeAll_cons, ih, mem_place, List.mem_cons, or_assoc, or_left_comm]

theorem placeAll_append (sorted items others : List α) :
    placeAll before sorted (items ++ others) = placeAll before (placeAll before sorted items) others :=
  List.foldl_append

theorem placeAll_append_of_not_before {front items : List α} (rest : List α)
    (h : ∀ x ∈ front, ∀ a ∈ items, before a x = false) :
    placeAll before (front ++ rest) items = front ++ placeAll before rest items := by
  induction items generalizing rest with
  | nil => rfl
  | cons a items ih =>
    rw [placeAll_cons, placeAll_cons,
      place_append_of_not_before rest fun x hx => h x hx a (List.mem_cons_self ..)]
    exact ih _ fun x hx b hb => h x hx b (List.mem_cons_of_mem _ hb)

theorem placeAll_append_of_before {b : α} {items : List α} (front rest : List α)
    (h : ∀ a ∈ items, before a b = true) :
    placeAll before (front ++ b :: rest) items = placeAll before front items ++ b :: rest := by
  induction items generalizing front with
  | nil => rfl
  | cons a items ih =>
    rw [placeAll_cons, placeAll_cons, place_append_of_before (h a (List.mem_cons_self ..))]
    exact ih _ fun a ha => h a (List.mem_cons_of_mem _ ha)

theorem placeAll_nil {items : List α} (h : IsSorted before items) :
    placeAll before [] items = items := by
  suffices all : ∀ front : List α, IsSorted before (front ++ items) →
      placeAll before front items = front ++ items from all [] h
  clear h
  induction items with
  | nil => exact fun front _ => (List.append_nil front).symm
  | cons a items ih =>
    intro front sorted
    rw [placeAll_cons, place_eq_append fun x hx =>
      (List.pairwise_append.1 sorted).2.2 x hx a (List.mem_cons_self ..)]
    rw [ih _ (by simpa using sorted), List.append_assoc, List.singleton_append]

theorem placeAll_eq_append {front items : List α} (sorted : IsSorted before items)
    (h : ∀ x ∈ front, ∀ a ∈ items, before a x = false) :
    placeAll before front items = front ++ items := by
  have := placeAll_append_of_not_before [] h
  rwa [List.append_nil, placeAll_nil sorted] at this

-- Two elements of which one comes before the other can be put in the other way round.
theorem place_comm (w : IsWeak before) {a b : α} (h : before a b = true) (items : List α) :
    place before b (place before a items) = place before a (place before b items) := by
  induction items with
  | nil => simp [place, h, w.asymm h]
  | cons c rest ih =>
    cases ha : before a c <;> cases hb : before b c
    · simp [place, ha, hb, ih]
    · rcases w.cotrans c h with h' | h'
      · simp [ha] at h'
      · simp [w.asymm hb] at h'
    · simp [place, ha, hb, w.asymm h]
    · simp [place, ha, hb, h, w.asymm h]

theorem placeAll_place (w : IsWeak before) (a : α) {items : List α} (h : IsSorted before items)
    (sorted : List α) :
    placeAll before sorted (place before a items) = place before a (placeAll before sorted items) := by
  induction items generalizing sorted with
  | nil => rfl
  | cons b rest ih =>
    obtain ⟨least, sortedRest⟩ := List.pairwise_cons.1 h
    cases comes : before a b with
    | false =>
      simp only [place, comes, Bool.false_eq_true, if_false, placeAll_cons]
      exact ih sortedRest _
    | true =>
      have all : ∀ c ∈ b :: rest, before a c = true := fun c hc => by
        rcases List.mem_cons.1 hc with rfl | hc
        · exact comes
        · rcases w.cotrans c comes with h' | h'
          · exact h'
          · simp [least c hc] at h'
      simp only [place, comes, if_true, placeAll_cons a]
      clear h ih least sortedRest comes
      generalize b :: rest = items at all ⊢
      induction items generalizing sorted with
      | nil => rfl
      | cons c items ih =>
        rw [placeAll_cons, placeAll_cons, place_comm w (all c (List.mem_cons_self ..))]
        exact ih _ fun d hd => all d (List.mem_cons_of_mem _ hd)

-- Putting in sorted elements is putting in the elements.
theorem placeAll_placeAll (w : IsWeak before) (sorted items : List α) :
    placeAll before sorted (placeAll before [] items) = placeAll before sorted items := by
  suffices all : ∀ front : List α, IsSorted before front →
      placeAll before sorted (placeAll before front items) =
        placeAll before (placeAll before sorted front) items from all [] .nil
  induction items with
  | nil => exact fun _ _ => rfl
  | cons a items ih =>
    intro front h
    rw [placeAll_cons, placeAll_cons, ih _ (h.place w a), placeAll_place w a h]

variable (before) in
def Alike (items others : List α) : Prop := placeAll before [] items = placeAll before [] others

theorem Alike.append (w : IsWeak before) {items items' others others' : List α}
    (h : Alike before items items') (k : Alike before others others') :
    Alike before (items ++ others) (items' ++ others') := by
  unfold Alike
  rw [placeAll_append, placeAll_append, h, ← placeAll_placeAll w _ others, k, placeAll_placeAll w]

-- What a sorted list holds that passes stands in front, if all in front of what passes passes.
theorem IsSorted.split {items : List α} (h : IsSorted before items) {passes : α → Bool}
    (closed : ∀ x y, before y x = false → passes y = true → passes x = true) :
    ∃ front back, items = front ++ back ∧ (∀ x ∈ front, passes x = true) ∧
      ∀ x ∈ back, passes x = false := by
  induction items with
  | nil => exact ⟨[], [], rfl, by simp, by simp⟩
  | cons a rest ih =>
    obtain ⟨least, sortedRest⟩ := List.pairwise_cons.1 h
    obtain ⟨front, back, rfl, pass, fail⟩ := ih sortedRest
    cases ha : passes a with
    | true => exact ⟨a :: front, back, rfl, by simpa [ha] using pass, fail⟩
    | false =>
      refine ⟨[], a :: (front ++ back), rfl, by simp, fun x hx => ?_⟩
      rcases List.mem_cons.1 hx with rfl | hx
      · exact ha
      · exact Bool.eq_false_iff.2 fun hp =>
          Bool.eq_false_iff.1 ha (closed a x (least x hx) hp)

theorem IsSorted.split_not_before (w : IsWeak before) {items : List α} (h : IsSorted before items)
    (a : α) :
    ∃ front back, items = front ++ back ∧ (∀ x ∈ front, (!before a x) = true) ∧
      ∀ x ∈ back, (!before a x) = false :=
  h.split fun x y later hy => by
    simp only [Bool.not_eq_true'] at hy ⊢
    exact w.trans_not hy later

theorem IsSorted.split_before (w : IsWeak before) {items : List α} (h : IsSorted before items)
    (a : α) :
    ∃ front back, items = front ++ back ∧ (∀ x ∈ front, before x a = true) ∧
      ∀ x ∈ back, before x a = false :=
  h.split fun x y later hy => by
    rcases w.cotrans x hy with h' | h'
    · simp [later] at h'
    · exact h'

/-! Turned around, a list is sorted by the order turned around. -/

theorem IsWeak.turned (w : IsWeak before) : IsWeak fun a b => before b a :=
  ⟨fun h => w.asymm h, fun c h => (w.cotrans c h).symm⟩

theorem IsSorted.turned {items : List α} (h : IsSorted before items) :
    IsSorted (fun a b => before b a) items.reverse :=
  List.pairwise_reverse.2 h

-- Putting the elements of either list into the other, from the front or from the back, is the same.
theorem reverse_placeAll_turned (w : IsWeak before) {items others : List α}
    (h : IsSorted before items) (k : IsSorted before others) :
    (placeAll (fun a b => before b a) others.reverse items.reverse).reverse =
      placeAll before items others := by
  suffices all : ∀ (back : List α), IsSorted before back.reverse → ∀ others : List α,
      IsSorted before others →
      (placeAll (fun a b => before b a) others.reverse back).reverse =
        placeAll before back.reverse others by
    simpa using all items.reverse (by simpa using h) others k
  clear h k
  intro back
  induction back with
  | nil => exact fun _ others k => by simpa [placeAll] using (placeAll_nil k).symm
  | cons a back ih =>
    intro h others k
    rw [List.reverse_cons] at h ⊢
    obtain ⟨sortedBack, _, least⟩ := List.pairwise_append.1 h
    have put := ih sortedBack (place (fun a b => before b a) a others.reverse).reverse
      (by simpa using (IsSorted.place w.turned a k.turned).turned)
    rw [List.reverse_reverse] at put
    rw [placeAll_cons, put]
    obtain ⟨front, rest, rfl, pass, fail⟩ := k.split_before w a
    have placed : (place (fun a b => before b a) a (front ++ rest).reverse).reverse =
        front ++ a :: rest := by
      rw [List.reverse_append, place_append_of_not_before]
      · have : place (fun a b => before b a) a front.reverse = a :: front.reverse := by
          cases hf : front.reverse with
          | nil => rfl
          | cons b behind =>
            have : before b a = true := pass b (List.mem_reverse.1 (hf ▸ List.mem_cons_self ..))
            simp [place, this]
        simp [this]
      · exact fun x hx => fail x (List.mem_reverse.1 hx)
    rw [placed, placeAll_append, placeAll_append, placeAll_cons, placeAll_append_of_before _ _ pass]
    rw [place_eq_append]
    · intro x hx
      rcases mem_placeAll.1 hx with hx | hx
      · exact least x hx a (List.mem_singleton.2 rfl)
      · exact w.asymm (pass x hx)

end SecretSync.Sorting
