import SecretSync.Proofs.Json.Documents
import SecretSync.Proofs.Json.Float
import SecretSync.Proofs.Result

/-!
Documents that JSON text carries without loss. Main statement: `parse_render`.
-/

namespace SecretSync.Json

variable {room : Nat} {rest : Text}

theorem value_of_scalar {t : Text} {v : Value} (start : StartsScalar t)
    (h : scalar (t ++ rest) = .ok (v, rest)) (room fuel : Nat) :
    value room (fuel + 1) (t ++ rest) = .ok (v, rest) := by
  obtain ⟨c, cs, eq, begins⟩ := start
  have ⟨quote, bracket, brace⟩ := begins.apart
  subst eq
  rw [← h, List.cons_append, value.eq_def]
  dsimp only
  rw [if_neg quote, if_neg bracket, if_neg brace]

theorem skipBlanks_eq_self {c : CodePoint} (h : c.isJsonBlank = false) (cs : Text) :
    skipBlanks (c :: cs) = c :: cs :=
  List.dropWhile_cons_of_neg (by simp [h])

theorem skipBlanks_blank (t : Text) : skipBlanks (CodePoint.ofChar ' ' :: t) = skipBlanks t :=
  rfl

theorem StartsScalar.exists_begins {t : Text} (start : StartsScalar t) : ∃ c cs, t = c :: cs ∧ Begins c := by
  have ⟨c, cs, eq, begins⟩ := start
  exact ⟨c, cs, eq, begins.toBegins⟩

theorem exists_begins {v : Value} {Kind : Text → Prop} (json : v.IsJson Kind) :
    ∃ c cs, render v = c :: cs ∧ Begins c := by
  cases json
  case null => exact ⟨_, _, rfl, by decide, by decide⟩
  case bool b => exact (startsScalar_bool b).exists_begins
  case int n _ => exact (startsScalar_ofInt n).exists_begins
  case float x => exact (startsScalar_float x).exists_begins
  case text => exact ⟨_, _, rfl, by decide, by decide⟩
  case list => exact ⟨_, _, rfl, by decide, by decide⟩
  case object => exact ⟨_, _, rfl, by decide, by decide⟩

-- What is read if there is room for brackets that are nested so deep.
def within {α : Type} (room depth : Nat) (read : α) : Result α :=
  if depth ≤ room then .ok read else .error .nestedTooDeeply

namespace within

variable {α β : Type} {depth : Nat} (read : α)

theorem flat : within room 0 read = .ok read :=
  if_pos (Nat.zero_le _)

theorem succ : within (room + 1) (depth + 1) read = within room depth read := by
  simp only [within, Nat.add_le_add_iff_right]

theorem none : within 0 (depth + 1) read = .error .nestedTooDeeply :=
  rfl

theorem map (f : α → β) : (within room depth read).map f = within room depth (f read) := by
  rw [within, within]
  split
  all_goals rfl

-- What is read first is in the way of the rest.
theorem bind_map {others : Nat} (next : α → Result β) {last : β}
    (h : next read = within room others last) :
    (within room depth read >>= next) = within room (max depth others) last := by
  by_cases first : depth ≤ room
  case pos =>
    rw [within, if_pos first]
    simp only [bind, Except.bind, h, within, Nat.max_le, first, true_and]
  case neg =>
    rw [within, if_neg first, within, if_neg fun all => first (Nat.max_le.mp all).left]
    rfl

end within

-- The text of the value is read as the value, whatever follows it. The recursion goes down twice for a code
-- point at most.
def ReadsBack (v : Value) : Prop :=
  ∀ room fuel rest, 2 * (render v).length < fuel → Follows rest →
    value room fuel (render v ++ rest) = within room v.depth (v, rest)

theorem readsBack_of_scalar {v : Value} (start : StartsScalar (render v)) (flat : v.depth = 0)
    (h : ∀ rest, Follows rest → scalar (render v ++ rest) = .ok (v, rest)) : ReadsBack v := by
  intro room fuel rest enough follows
  cases fuel
  case zero => omega
  case succ fuel =>
    rw [flat, within.flat]
    exact value_of_scalar start (h rest follows) room fuel

theorem readsBack_text {t : Text} (joined : t.IsJoined) : ReadsBack (.text t) := by
  intro room fuel rest enough _
  cases fuel
  case zero => omega
  case succ fuel =>
    have read := string_literal joined rest
    simp only [render, literal, List.cons_append, List.append_assoc, List.nil_append]
    rw [value.eq_def]
    dsimp only
    rw [if_pos rfl, read]
    rfl

theorem comma_eq : Text.ofString ", " = [CodePoint.ofChar ',', CodePoint.ofChar ' '] :=
  rfl

theorem colon_eq : Text.ofString ": " = [CodePoint.ofChar ':', CodePoint.ofChar ' '] :=
  rfl

theorem skipBlanks_render {v : Value} (json : v.IsJson Text.IsJoined) (rest : Text) :
    skipBlanks (render v ++ rest) = render v ++ rest := by
  have ⟨c, cs, eq, begins⟩ := exists_begins json
  rw [eq]
  exact skipBlanks_eq_self begins.solid _

theorem exists_begins_items {v : Value} (json : v.IsJson Text.IsJoined) (vs : List Value) (rest : Text) :
    ∃ c cs, renderItems (v :: vs) ++ rest = c :: cs ∧ Begins c := by
  have ⟨c, cs, eq, begins⟩ := exists_begins json
  refine ⟨c, ?_⟩
  cases vs
  case nil => exact ⟨cs ++ rest, by rw [renderItems, eq, List.cons_append], begins⟩
  case cons w vs =>
    refine ⟨cs ++ (Text.ofString ", " ++ (renderItems (w :: vs) ++ rest)), ?_, begins⟩
    simp only [renderItems, eq, List.cons_append, List.append_assoc]

theorem skipBlanks_renderItems {v : Value} (json : v.IsJson Text.IsJoined) (vs : List Value) (rest : Text) :
    skipBlanks (renderItems (v :: vs) ++ rest) = renderItems (v :: vs) ++ rest := by
  have ⟨c, cs, eq, begins⟩ := exists_begins_items json vs rest
  rw [eq]
  exact skipBlanks_eq_self begins.solid _

theorem exists_quote (name : Text) (v : Value) (ms : List (Text × Value)) (rest : Text) :
    ∃ cs, renderMembers ((name, v) :: ms) ++ rest = CodePoint.ofChar '"' :: cs := by
  cases ms
  all_goals exact ⟨_, rfl⟩

theorem skipBlanks_renderMembers (name : Text) (v : Value) (ms : List (Text × Value)) (rest : Text) :
    skipBlanks (renderMembers ((name, v) :: ms) ++ rest) = renderMembers ((name, v) :: ms) ++ rest := by
  have ⟨cs, eq⟩ := exists_quote name v ms rest
  rw [eq]
  rfl

theorem items_render {v : Value} {vs : List Value} (json : ∀ w ∈ v :: vs, w.IsJson Text.IsJoined)
    (each : ∀ w ∈ v :: vs, ReadsBack w) {fuel : Nat} (enough : 2 * (renderItems (v :: vs)).length + 1 < fuel) :
    items room fuel (renderItems (v :: vs) ++ CodePoint.ofChar ']' :: rest) =
      within room (Value.depthOfItems (v :: vs)) (v :: vs, rest) := by
  have first := each v List.mem_cons_self
  induction vs generalizing v fuel
  case nil =>
    cases fuel
    case zero => omega
    case succ fuel =>
      simp only [renderItems] at enough ⊢
      rw [items, first room fuel _ (by omega) (follows_cons (by decide))]
      exact within.bind_map _ _ rfl
  case cons w vs hi =>
    cases fuel
    case zero => omega
    case succ fuel =>
      have json := (List.forall_mem_cons.mp json).right
      have each := (List.forall_mem_cons.mp each).right
      simp only [renderItems, comma_eq, List.length_append, List.length_cons, List.length_nil] at enough
      have enough' : 2 * (renderItems (w :: vs)).length + 1 < fuel := by omega
      have behind := hi json each enough' (each w List.mem_cons_self)
      simp only [renderItems, comma_eq, List.append_assoc, List.cons_append, List.nil_append]
      rw [items, first room fuel _ (by omega) (follows_cons (by decide))]
      refine within.bind_map _ _ ?_
      simp only [skipBlanks_eq_self (c := ',') rfl, skipBlanks_blank,
        skipBlanks_renderItems (json w List.mem_cons_self), behind]
      exact within.map _ fun read : List Value × Text => (v :: read.1, read.2)

theorem renderMembers_cons_cons (name : Text) (v : Value) (member : Text × Value) (ms : List (Text × Value)) :
    renderMembers ((name, v) :: member :: ms) =
      literal name ++ Text.ofString ": " ++ render v ++ Text.ofString ", " ++ renderMembers (member :: ms) := by
  rw [renderMembers]
  exact fun h => List.cons_ne_nil _ _ h

-- A member is read, and then what stands behind it.
theorem members_of_member {name : Text} {v : Value} (named : name.IsJoined) (json : v.IsJson Text.IsJoined)
    (reads : ReadsBack v) {fuel : Nat} (enough : 2 * (render v).length < fuel) (follows : Follows rest) :
    members room (fuel + 1) (literal name ++ (Text.ofString ": " ++ (render v ++ rest))) = (do
      let (v, rest) ← within room v.depth (v, rest)
      match skipBlanks rest with
      | [] => .error .malformedJson
      | c :: rest =>
        if c = '}' then .ok ([(name, v)], rest)
        else if c = ',' then do
          let (ms, rest) ← members room fuel (skipBlanks rest)
          pure ((name, v) :: ms, rest)
        else .error .malformedJson) := by
  simp only [literal, colon_eq, List.append_assoc, List.cons_append, List.nil_append]
  rw [members, if_pos rfl, string_literal named]
  simp only [bind, Except.bind, skipBlanks_eq_self (c := ':') rfl, if_pos, skipBlanks_blank,
    skipBlanks_render json]
  rw [reads room fuel _ enough follows]
  rfl

theorem members_render {name : Text} {v : Value} {ms : List (Text × Value)}
    (names : ∀ member ∈ (name, v) :: ms, member.1.IsJoined)
    (json : ∀ member ∈ (name, v) :: ms, member.2.IsJson Text.IsJoined)
    (each : ∀ member ∈ (name, v) :: ms, ReadsBack member.2)
    {fuel : Nat} (enough : 2 * (renderMembers ((name, v) :: ms)).length + 1 < fuel) :
    members room fuel (renderMembers ((name, v) :: ms) ++ CodePoint.ofChar '}' :: rest) =
      within room (Value.depthOfMembers ((name, v) :: ms)) ((name, v) :: ms, rest) := by
  induction ms generalizing name v fuel
  case nil =>
    cases fuel
    case zero => omega
    case succ fuel =>
      simp only [renderMembers, List.length_append] at enough
      have enough' : 2 * (render v).length < fuel := by omega
      have follows : Follows (CodePoint.ofChar '}' :: rest) := follows_cons (by decide)
      simp only [renderMembers, List.append_assoc]
      rw [members_of_member (names _ List.mem_cons_self) (json _ List.mem_cons_self) (each _ List.mem_cons_self)
        enough' follows]
      exact within.bind_map _ _ rfl
  case cons m ms hi =>
    obtain ⟨name', w⟩ := m
    cases fuel
    case zero => omega
    case succ fuel =>
      rw [renderMembers_cons_cons] at enough ⊢
      simp only [comma_eq, List.length_append, List.length_cons, List.length_nil] at enough
      have enough' : 2 * (render v).length < fuel := by omega
      have others : 2 * (renderMembers ((name', w) :: ms)).length + 1 < fuel := by omega
      have behind := hi (List.forall_mem_cons.mp names).right (List.forall_mem_cons.mp json).right
        (List.forall_mem_cons.mp each).right others
      simp only [comma_eq, List.append_assoc, List.cons_append, List.nil_append]
      rw [members_of_member (names _ List.mem_cons_self) (json _ List.mem_cons_self)
        (each _ List.mem_cons_self) enough' (follows_cons (by decide))]
      refine within.bind_map _ _ ?_
      simp only [skipBlanks_eq_self (c := ',') rfl, skipBlanks_blank, skipBlanks_renderMembers, behind]
      exact within.map _ fun read : List (Text × Value) × Text => ((name, v) :: read.1, read.2)

theorem value_list {fuel : Nat} {t : Text} (start : ∃ c cs, t = c :: cs ∧ Begins c) :
    value (room + 1) (fuel + 1) ('[' :: t) =
      (items room fuel t).map fun read => (.list read.1, read.2) := by
  have ⟨c, cs, eq, begins⟩ := start
  subst eq
  rw [value.eq_def]
  dsimp only
  rw [if_neg (by decide), if_pos rfl, skipBlanks_eq_self begins.solid]
  simp only [if_neg begins.opens.left]
  rfl

theorem value_object {fuel : Nat} {t : Text} (start : ∃ c cs, t = c :: cs ∧ Begins c) :
    value (room + 1) (fuel + 1) ('{' :: t) =
      (members room fuel t).map fun read => (.object (Table.ofEntries read.1), read.2) := by
  have ⟨c, cs, eq, begins⟩ := start
  subst eq
  rw [value.eq_def]
  dsimp only
  rw [if_neg (by decide), if_neg (by decide), if_pos rfl, skipBlanks_eq_self begins.solid]
  simp only [if_neg begins.opens.right]
  rfl

theorem readsBack_list {items : List Value} (json : ∀ v ∈ items, v.IsJson Text.IsJoined)
    (each : ∀ v ∈ items, ReadsBack v) :
    ReadsBack (.list items) := by
  intro room fuel rest enough _
  cases fuel
  case zero => omega
  case succ fuel =>
    simp only [render, List.length_append, List.length_cons, List.length_nil] at enough
    simp only [render, List.append_assoc, List.cons_append, List.nil_append]
    cases room
    case zero => rfl
    case succ room =>
      rw [Value.depth, within.succ]
      cases items
      case nil => rfl
      case cons v vs =>
        rw [value_list (exists_begins_items (json v List.mem_cons_self) vs _), items_render json each (by omega)]
        exact within.map _ _

theorem readsBack_object {ms : List (Text × Value)} (distinct : Table.Distinct ms)
    (names : ∀ member ∈ ms, member.1.IsJoined) (json : ∀ member ∈ ms, member.2.IsJson Text.IsJoined)
    (each : ∀ member ∈ ms, ReadsBack member.2) : ReadsBack (.object ms) := by
  intro room fuel rest enough _
  cases fuel
  case zero => omega
  case succ fuel =>
    simp only [render, List.length_append, List.length_cons, List.length_nil] at enough
    simp only [render, List.append_assoc, List.cons_append, List.nil_append]
    cases room
    case zero => rfl
    case succ room =>
      rw [Value.depth, within.succ]
      cases ms
      case nil => rfl
      case cons m ms =>
        obtain ⟨name, v⟩ := m
        obtain ⟨cs, eq⟩ := exists_quote name v ms (CodePoint.ofChar '}' :: rest)
        rw [value_object ⟨_, cs, eq, by decide, by decide⟩, members_render names json each (by omega), within.map,
          Table.ofEntries_of_distinct distinct]

theorem readsBack {v : Value} (json : v.IsJson Text.IsJoined) : ReadsBack v := by
  induction json
  case null => exact readsBack_of_scalar ⟨_, _, rfl, by decide⟩ rfl fun _ _ => scalar_null
  case bool b => exact readsBack_of_scalar (startsScalar_bool b) rfl fun _ _ => scalar_bool b
  case int n short => exact readsBack_of_scalar (startsScalar_ofInt n) rfl fun _ follows => scalar_ofInt short follows
  case float x => exact readsBack_of_scalar (startsScalar_float x) rfl fun _ follows => scalar_float x follows
  case text joined => exact readsBack_text joined
  case list json each => exact readsBack_list json each
  case object distinct names json each => exact readsBack_object distinct names json each

-- A document is read back if it is not nested too deeply.
theorem parse_render {v : Value} (json : v.IsJson Text.IsJoined) :
    parse (render v) = if v.depth ≤ maxDepth then .ok v else .error .nestedTooDeeply := by
  have spaces := skipBlanks_render json []
  have read := readsBack json maxDepth (2 * (render v).length + 2) [] (by omega) follows_nil
  rw [List.append_nil] at spaces read
  rw [parse, spaces, read, within]
  split
  all_goals rfl

theorem parse_render_of_shallow {v : Value} (json : v.IsJson Text.IsJoined) (shallow : v.depth ≤ maxDepth) :
    parse (render v) = .ok v :=
  (parse_render json).trans (if_pos shallow)

theorem parse_render_of_deep {v : Value} (json : v.IsJson Text.IsJoined) (deep : maxDepth < v.depth) :
    parse (render v) = .error .nestedTooDeeply :=
  (parse_render json).trans (if_neg (Nat.not_le_of_lt deep))

end SecretSync.Json
