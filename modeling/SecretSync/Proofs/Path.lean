import SecretSync.Path
import SecretSync.Proofs.Json.Documents
import SecretSync.Proofs.Json.Faults
import SecretSync.Proofs.Number.Decimal

/-!
Where paths lead. An object is entered by the name of a member and a list by a numeral, in the digits of any script; a
segment that only looks like a numeral is a fault. Main statements: `walk_eq_some_iff`, `walk_eq_error_iff`.
-/

namespace SecretSync

open CodePoint (ofDigit isDigit_ofDigit)

namespace CodePoint

variable {c : CodePoint} {d : Nat}

-- What readers of numerals ask about the digits of other scripts.
theorem wide_digit (wide : c.isAscii = false) (h : c.decimal? = some d) : d < 10 ∧ c.isWideBlank = false := by
  have apart : ∀ start ∈ zeros, ∀ k < 10, (ofNat (start + k)).isWideBlank = false := by decide
  rw [decimal?, wide] at h
  obtain ⟨start, found, eq⟩ := Option.map_eq_some_iff.mp h
  have range := List.find?_some found
  simp only [Bool.and_eq_true, decide_eq_true_eq] at range
  have solid := apart start (List.mem_of_find?_eq_some found) (c.val - start) (by omega)
  have number : start + (c.val - start) = c.val := by omega
  rw [number, ofNat_val] at solid
  exact ⟨by omega, solid⟩

-- A sign that is a digit by name only is neither ASCII nor white space.
theorem plain_digit (digit : c.isDigit = true) (h : c.decimal? = none) :
    c.isAscii = false ∧ c.isWideBlank = false := by
  have apart : ∀ entry ∈ plainDigits, entry.2 < entry.1 + 11 ∧
      ∀ k < 11, (ofNat (entry.1 + k)).isAscii = false ∧ (ofNat (entry.1 + k)).isWideBlank = false := by
    decide
  simp only [isDigit, h, Option.isSome_none, Bool.false_or, List.any_eq_true, Bool.and_eq_true,
    decide_eq_true_eq] at digit
  obtain ⟨entry, mem, first, last⟩ := digit
  have ⟨few, each⟩ := apart entry mem
  have number : entry.1 + (c.val - entry.1) = c.val := by omega
  have solid := each (c.val - entry.1) (by omega)
  rwa [number, ofNat_val] at solid

end CodePoint

namespace Numeral

-- What becomes of a digit in a numeral.
theorem toAscii?_digit {c : CodePoint} (digit : c.isDigit = true) :
    (if c.isAscii then some c else if c.isWideBlank then some (' ' : CodePoint)
      else c.decimal?.map fun d => CodePoint.ofNat (0x30 + d)) = c.decimal?.map ofDigit := by
  cases ascii : c.isAscii
  case true =>
    cases value : c.decimal?
    case none =>
      have ⟨wide, _⟩ := CodePoint.plain_digit digit value
      rw [wide] at ascii
      cases ascii
    case some d =>
      rw [CodePoint.decimal?, ascii, if_pos rfl] at value
      rw [if_pos rfl, (CodePoint.digit?_lt value).right]
      rfl
  case false =>
    have solid : c.isWideBlank = false := by
      cases value : c.decimal?
      case none => exact (CodePoint.plain_digit digit value).right
      case some d => exact (CodePoint.wide_digit ascii value).right
    simp only [solid, Bool.false_eq_true, if_false]
    rfl

theorem decimal?_lt {c : CodePoint} {d : Nat} (h : c.decimal? = some d) : d < 10 := by
  cases ascii : c.isAscii
  case true =>
    rw [CodePoint.decimal?, ascii, if_pos rfl] at h
    exact (CodePoint.digit?_lt h).left
  case false => exact (CodePoint.wide_digit ascii h).left

theorem toAscii?_eq {t : Text} (digits : ∀ c ∈ t, c.isDigit = true) :
    toAscii? t = (t.mapM CodePoint.decimal?).map (List.map ofDigit) := by
  rw [toAscii?]
  induction t
  case nil => rfl
  case cons c cs hi =>
    obtain ⟨first, others⟩ := List.forall_mem_cons.mp digits
    rw [List.mapM_cons, List.mapM_cons, toAscii?_digit first, hi others]
    cases c.decimal?
    case none => rfl
    case some d =>
      cases cs.mapM CodePoint.decimal?
      case none => rfl
      case some ds => rfl

theorem mapM_decimal?_eq_some_iff {t : Text} {ds : List Nat} :
    t.mapM CodePoint.decimal? = some ds ↔ t.map CodePoint.decimal? = ds.map some := by
  induction t generalizing ds
  case nil => cases ds <;> simp
  case cons c cs hi =>
    simp only [List.mapM_cons, Option.bind_eq_bind, Option.bind_eq_some_iff, pure, Option.some.injEq, List.map_cons]
    constructor
    case mp =>
      intro h
      obtain ⟨d, first, others, rest, eq⟩ := h
      rw [← eq, first, hi.mp rest, List.map_cons]
    case mpr =>
      intro h
      cases ds
      case nil => cases h
      case cons d ds =>
        have ⟨first, rest⟩ := List.cons.inj h
        exact ⟨d, first, ds, hi.mpr rest, rfl⟩

theorem mapM_decimal?_eq_none_iff {t : Text} :
    t.mapM CodePoint.decimal? = none ↔ ∃ c ∈ t, c.decimal? = none := by
  induction t
  case nil => simp
  case cons c cs hi =>
    rw [List.mapM_cons, List.exists_mem_cons_iff, ← hi]
    cases c.decimal?
    case none => simp
    case some d =>
      cases cs.mapM CodePoint.decimal?
      all_goals simp

-- A text of digits is read by the values of the digits.
theorem int?_of_digits {t : Text} (nonempty : t ≠ []) (digits : ∀ c ∈ t, c.isDigit = true) :
    int? t = ((t.mapM CodePoint.decimal?).bind nat?).map Int.ofNat := by
  have ascii := toAscii?_eq digits
  cases value : t.mapM CodePoint.decimal?
  case none =>
    rw [value] at ascii
    rw [int?, normalize?, ascii]
    rfl
  case some ds =>
    rw [value] at ascii
    have values := mapM_decimal?_eq_some_iff.mp value
    have several : ds ≠ [] := by
      intro empty
      rw [empty] at values
      exact nonempty (List.map_eq_nil_iff.mp values)
    refine int?_of_toAscii? several (fun d mem => ?_) ascii
    have given : some d ∈ t.map CodePoint.decimal? := values ▸ List.mem_map_of_mem mem
    obtain ⟨c, _, value⟩ := List.mem_map.mp given
    exact decimal?_lt value

end Numeral

namespace Path

variable {Kind : Text → Prop} {segment : Text} {path : List Text} {v w : Value} {n : Nat}

-- A segment of decimal digits, of any script, and its number. A numeral has at most 4300 digits.
structure IsNumber (segment : Text) (n : Nat) : Prop where
  nonempty : segment ≠ []
  short    : segment.length ≤ Numeral.maxDigits
  digits   : ∃ ds, segment.map CodePoint.decimal? = ds.map some ∧ Numeral.ofDigits ds = n

-- A segment of digits that no number can be read from: one of the digits is a digit by name only, or there are too
-- many of them.
structure IsUnreadable (segment : Text) : Prop where
  nonempty : segment ≠ []
  digits   : ∀ c ∈ segment, c.isDigit = true
  cause    : (∃ c ∈ segment, c.decimal? = none) ∨ Numeral.maxDigits < segment.length

-- The value that the segments lead to from another one.
inductive Leads : List Text → Value → Value → Prop
  | here (v : Value) : Leads [] v v
  | member {segment : Text} {path : List Text} {members : List (Text × Value)} {v w : Value}
      (mem : (segment, v) ∈ members) (rest : Leads path v w) : Leads (segment :: path) (.object members) w
  | element {segment : Text} {path : List Text} {items : List Value} {n : Nat} {v w : Value}
      (number : IsNumber segment n) (element : items[n]? = some v) (rest : Leads path v w) :
      Leads (segment :: path) (.list items) w

-- The segments lead to a list, to which the next one is unreadable.
inductive Misreads : List Text → Value → Prop
  | here {segment : Text} {path : List Text} {items : List Value} (unreadable : IsUnreadable segment) :
      Misreads (segment :: path) (.list items)
  | member {segment : Text} {path : List Text} {members : List (Text × Value)} {v : Value}
      (mem : (segment, v) ∈ members) (rest : Misreads path v) : Misreads (segment :: path) (.object members)
  | element {segment : Text} {path : List Text} {items : List Value} {n : Nat} {v : Value}
      (number : IsNumber segment n) (element : items[n]? = some v) (rest : Misreads path v) :
      Misreads (segment :: path) (.list items)

theorem isPosition_iff : isPosition segment = true ↔ segment ≠ [] ∧ ∀ c ∈ segment, c.isDigit = true := by
  simp [isPosition]

theorem IsNumber.isPosition (number : IsNumber segment n) : isPosition segment = true := by
  refine isPosition_iff.mpr ⟨number.nonempty, fun c mem => ?_⟩
  have ⟨ds, values, _⟩ := number.digits
  have given : c.decimal? ∈ ds.map some := values ▸ List.mem_map_of_mem mem
  have ⟨d, _, value⟩ := List.mem_map.mp given
  rw [CodePoint.isDigit, ← value]
  rfl

theorem IsNumber.int?_eq (number : IsNumber segment n) : Numeral.int? segment = some (n : Int) := by
  have ⟨nonempty, digits⟩ := isPosition_iff.mp number.isPosition
  have ⟨ds, values, eq⟩ := number.digits
  have length : ds.length = segment.length := by
    have := congrArg List.length values
    simpa using this.symm
  rw [Numeral.int?_of_digits nonempty digits, Numeral.mapM_decimal?_eq_some_iff.mpr values, Option.bind_some,
    Numeral.nat?, if_neg (by rw [length]; exact Nat.not_lt.mpr number.short), eq]
  rfl

theorem IsUnreadable.int?_eq (unreadable : IsUnreadable segment) : Numeral.int? segment = none := by
  rw [Numeral.int?_of_digits unreadable.nonempty unreadable.digits]
  cases value : segment.mapM CodePoint.decimal?
  case none => rfl
  case some ds =>
    rcases unreadable.cause with named | long
    · rw [Numeral.mapM_decimal?_eq_none_iff.mpr named] at value
      cases value
    · have values := Numeral.mapM_decimal?_eq_some_iff.mp value
      have length : ds.length = segment.length := by
        have := congrArg List.length values
        simpa using this.symm
      rw [Option.bind_some, Numeral.nat?, if_pos (by rw [length]; exact long)]
      rfl

-- Digits are a numeral or unreadable.
theorem number_or_unreadable (position : isPosition segment = true) :
    (∃ n, IsNumber segment n) ∨ IsUnreadable segment := by
  have ⟨nonempty, digits⟩ := isPosition_iff.mp position
  by_cases short : segment.length ≤ Numeral.maxDigits
  case neg => exact .inr ⟨nonempty, digits, .inr (Nat.lt_of_not_le short)⟩
  case pos =>
    cases value : segment.mapM CodePoint.decimal?
    case none => exact .inr ⟨nonempty, digits, .inl (Numeral.mapM_decimal?_eq_none_iff.mp value)⟩
    case some ds => exact .inl ⟨_, nonempty, short, ds, Numeral.mapM_decimal?_eq_some_iff.mp value, rfl⟩

theorem enter_number (number : IsNumber segment n) (items : List Value) :
    enter segment (.list items) = .ok items[n]? := by
  rw [enter, if_pos number.isPosition, number.int?_eq]
  rfl

theorem enter_unreadable (unreadable : IsUnreadable segment) (items : List Value) :
    enter segment (.list items) = .error .unreadable := by
  rw [enter, if_pos (isPosition_iff.mpr ⟨unreadable.nonempty, unreadable.digits⟩), unreadable.int?_eq]
  rfl

-- What is entered is a part of a value, or the segment is unreadable.
theorem enter_eq_some (h : enter segment v = .ok (some w)) :
    (∃ members, v = .object members ∧ (segment, w) ∈ members) ∨
      ∃ items n, v = .list items ∧ IsNumber segment n ∧ items[n]? = some w := by
  cases v
  case object members =>
    obtain ⟨name, mem, same⟩ := Table.exists_mem_of_get? (Except.ok.inj h)
    exact .inl ⟨members, rfl, eq_of_beq same ▸ mem⟩
  case list items =>
    rw [enter] at h
    split at h
    case isFalse => cases h
    case isTrue position =>
      rcases number_or_unreadable position with ⟨n, number⟩ | unreadable
      · rw [number.int?_eq] at h
        exact .inr ⟨items, n, rfl, number, Except.ok.inj h⟩
      · rw [unreadable.int?_eq] at h
        cases h
  all_goals cases h

theorem enter_eq_error {fault : Fault} (h : enter segment v = .error fault) :
    fault = .unreadable ∧ IsUnreadable segment ∧ ∃ items, v = .list items := by
  cases v
  case list items =>
    rw [enter] at h
    split at h
    case isFalse => cases h
    case isTrue position =>
      rcases number_or_unreadable position with ⟨n, number⟩ | unreadable
      · rw [number.int?_eq] at h
        cases h
      · rw [unreadable.int?_eq] at h
        cases h
        exact ⟨rfl, unreadable, items, rfl⟩
  all_goals cases h

theorem Leads.walk_eq (leads : Leads path v w) (json : v.IsJson Kind) : walk path v = .ok (some w) := by
  induction leads
  case here => rfl
  case member segment path members v w mem rest hi =>
    cases json
    case object distinct names each =>
      have found : enter segment (.object members) = .ok (some v) := congrArg _ (Table.get?_of_mem distinct mem)
      rw [walk, found]
      exact hi (each _ mem)
  case element segment path items n v w number element rest hi =>
    cases json
    case list each =>
      rw [walk, enter_number number, element]
      exact hi (each _ (List.mem_of_getElem? element))

theorem Misreads.walk_eq (misreads : Misreads path v) (json : v.IsJson Kind) :
    walk path v = .error .unreadable := by
  induction misreads
  case here unreadable =>
    rw [walk, enter_unreadable unreadable]
    rfl
  case member segment path members v mem rest hi =>
    cases json
    case object distinct names each =>
      have found : enter segment (.object members) = .ok (some v) := congrArg _ (Table.get?_of_mem distinct mem)
      rw [walk, found]
      exact hi (each _ mem)
  case element segment path items n v number element rest hi =>
    cases json
    case list each =>
      rw [walk, enter_number number, element]
      exact hi (each _ (List.mem_of_getElem? element))

theorem leads_of_walk (h : walk path v = .ok (some w)) : Leads path v w := by
  induction path generalizing v
  case nil =>
    cases h
    exact .here _
  case cons segment path hi =>
    simp only [walk, Result.bind_eq_ok_iff] at h
    obtain ⟨entered, found, h⟩ := h
    cases entered
    case none => cases h
    case some u =>
      rcases enter_eq_some found with ⟨members, eq, mem⟩ | ⟨items, n, eq, number, element⟩
      · exact eq ▸ .member mem (hi h)
      · exact eq ▸ .element number element (hi h)

theorem misreads_of_walk {fault : Fault} (h : walk path v = .error fault) :
    fault = .unreadable ∧ Misreads path v := by
  induction path generalizing v
  case nil => cases h
  case cons segment path hi =>
    rw [walk] at h
    cases found : enter segment v
    case error =>
      rw [found] at h
      cases h
      obtain ⟨eq, unreadable, items, list⟩ := enter_eq_error found
      exact ⟨eq, list ▸ .here unreadable⟩
    case ok entered =>
      rw [found] at h
      cases entered
      case none => cases h
      case some u =>
        have ⟨eq, rest⟩ := hi h
        refine ⟨eq, ?_⟩
        rcases enter_eq_some found with ⟨members, eq, mem⟩ | ⟨items, n, eq, number, element⟩
        · exact eq ▸ .member mem rest
        · exact eq ▸ .element number element rest

theorem walk_eq_some_iff (json : v.IsJson Kind) : walk path v = .ok (some w) ↔ Leads path v w :=
  ⟨leads_of_walk, fun leads => leads.walk_eq json⟩

theorem walk_eq_error_iff (json : v.IsJson Kind) {fault : Fault} :
    walk path v = .error fault ↔ fault = .unreadable ∧ Misreads path v :=
  ⟨misreads_of_walk, fun h => h.left ▸ h.right.walk_eq json⟩

-- What the parts of a list or object inherit is inherited along a path.
theorem Leads.inherits {P : Value → Prop} (leads : Leads path v w)
    (list : ∀ items, P (.list items) → ∀ u ∈ items, P u)
    (object : ∀ members, P (.object members) → ∀ member ∈ members, P member.2) (h : P v) : P w := by
  induction leads
  case here => exact h
  case member mem _ hi => exact hi (object _ h _ mem)
  case element element _ hi => exact hi (list _ h _ (List.mem_of_getElem? element))

theorem Leads.isJson (leads : Leads path v w) (json : v.IsJson Kind) : w.IsJson Kind := by
  refine leads.inherits (fun items json => ?list) (fun members json => ?object) json
  case list =>
    cases json
    assumption
  case object =>
    cases json
    assumption

theorem walk_failsOnly (path : List Text) (v : Value) : Result.FailsOnly Json.Unreadable (walk path v) :=
  fun _ failed => (misreads_of_walk failed).left ▸ rfl

end Path

end SecretSync
