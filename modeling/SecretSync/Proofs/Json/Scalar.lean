import SecretSync.Json.Parser
import SecretSync.Json.Printer
import SecretSync.Proofs.Number.Decimal

/-!
Words and integers in JSON text are read back, whatever follows a value there. Main statement: `scalar_ofInt`.
-/

namespace SecretSync.Json

open CodePoint (ofDigit isDigit_ofDigit)

-- What can stand behind a value: nothing, or what separates it from the next one or ends the list or object.
def Follows (rest : Text) : Prop :=
  ∀ c ∈ rest.head?, c = ',' ∨ c = ']' ∨ c = '}'

-- What can stand behind digits.
def NoDigit (rest : Text) : Prop :=
  ∀ c ∈ rest.head?, c.digit? = none

variable {rest : Text}

theorem follows_nil : Follows [] := nofun

theorem follows_cons {c : CodePoint} (h : c = ',' ∨ c = ']' ∨ c = '}') : Follows (c :: rest) := by
  intro d eq
  cases eq
  exact h

theorem noDigit_cons {c : CodePoint} (h : c.digit? = none) : NoDigit (c :: rest) := by
  intro d eq
  cases eq
  exact h

theorem Follows.noDigit (follows : Follows rest) : NoDigit rest := by
  intro c head
  rcases follows c head with eq | eq | eq
  all_goals
    subst eq
    rfl

theorem takeDigits_append {ds : List Nat} (digits : ∀ d ∈ ds, d < 10) (apart : NoDigit rest) :
    Numeral.takeDigits (ds.map ofDigit ++ rest) = (ds, rest) := by
  induction ds
  case nil =>
    cases rest
    case nil => rfl
    case cons c cs => simp [Numeral.takeDigits, apart c rfl]
  case cons d ds hi =>
    have ⟨first, others⟩ := List.forall_mem_cons.mp digits
    simp [Numeral.takeDigits, (isDigit_ofDigit first).value, hi others]

theorem fraction?_eq_none (follows : Follows rest) : fraction? rest = none := by
  cases rest
  case nil => rfl
  case cons c cs =>
    have apart : c ≠ '.' := by
      rcases follows c rfl with eq | eq | eq
      all_goals
        subst eq
        decide
    rw [fraction?, if_neg apart]

theorem exponent?_eq_none (follows : Follows rest) : exponent? rest = none := by
  cases rest
  case nil => rfl
  case cons c cs =>
    have apart : ¬(decide (c = 'e') || decide (c = 'E')) = true := by
      rcases follows c rfl with eq | eq | eq
      all_goals
        subst eq
        decide
    rw [exponent?, if_neg apart]

-- The digits that a number is written in.
structure Digits (n : Nat) (ds : List Nat) : Prop where
  nonempty : ds ≠ []
  small    : ∀ d ∈ ds, d < 10
  written  : Text.ofNat n = ds.map ofDigit
  number   : Numeral.ofDigits ds = n

theorem exists_digits (n : Nat) : ∃ ds, Digits n ds := by
  have ⟨ds, nonempty, small, written, number⟩ := Text.digitsWithin_eq (n + 1) n (Nat.lt_succ_self n)
  exact ⟨ds, nonempty, small, written, number⟩

namespace Digits

variable {n : Nat} {ds : List Nat}

theorem exists_cons (digits : Digits n ds) : ∃ d ds', d < 10 ∧ ds = d :: ds' := by
  obtain ⟨d, ds', eq⟩ := List.exists_cons_of_ne_nil digits.nonempty
  subst eq
  exact ⟨d, ds', digits.small d List.mem_cons_self, rfl⟩

theorem length_eq (digits : Digits n ds) : (Text.ofNat n).length = ds.length := by
  rw [digits.written, List.length_map]

-- Only zero begins with a zero.
theorem head?_ne (digits : Digits n ds) (positive : 0 < n) : ds.head? ≠ some 0 := by
  intro leading
  apply Text.head?_digitsWithin_ne (n + 1) (Nat.lt_succ_self n) positive
  rw [← Text.ofNat, digits.written, List.head?_map, leading]
  rfl

theorem eq_zero (digits : Digits 0 ds) : ds = [0] := by
  have ⟨d, ds', small, eq⟩ := digits.exists_cons
  have single : ds'.length = 0 := by
    have := digits.length_eq
    simpa [eq, Text.ofNat, Text.digitsWithin] using this.symm
  have number := digits.number
  rw [eq, List.eq_nil_of_length_eq_zero single] at number ⊢
  have : d = 0 := by simpa [Numeral.ofDigits] using number
  rw [this]

end Digits

-- The whole part of a number: no zero comes before other digits.
theorem wholePart_append {ds : List Nat} (nonempty : ds ≠ []) (small : ∀ d ∈ ds, d < 10)
    (leading : ds.head? ≠ some 0 ∨ ds = [0]) (apart : NoDigit rest) :
    wholePart (ds.map ofDigit ++ rest) = some (ds, rest) := by
  have taken := takeDigits_append small apart
  obtain ⟨d, ds, eq⟩ := List.exists_cons_of_ne_nil nonempty
  subst eq
  have value := (isDigit_ofDigit (small d List.mem_cons_self)).value
  simp only [List.map_cons, List.cons_append] at taken ⊢
  rw [wholePart.eq_def]
  cases d
  case succ d => simp only [value, taken]
  case zero =>
    have single : ds = [] := by simpa using leading
    subst single
    simp [value]

theorem Digits.wholePart_eq {n : Nat} {ds : List Nat} (digits : Digits n ds) (apart : NoDigit rest) :
    wholePart (ds.map ofDigit ++ rest) = some (ds, rest) := by
  refine wholePart_append digits.nonempty digits.small ?_ apart
  rcases Nat.eq_zero_or_pos n with zero | positive
  case inl =>
    subst zero
    exact .inr digits.eq_zero
  case inr => exact .inl (digits.head?_ne positive)

theorem unsignedNumber_ofNat {n : Nat} (negative : Bool) (short : (Text.ofNat n).length ≤ Numeral.maxDigits)
    (follows : Follows rest) :
    unsignedNumber negative (Text.ofNat n ++ rest) = .ok (.int (if negative then -(n : Int) else n), rest) := by
  have ⟨ds, digits⟩ := exists_digits n
  have read : Numeral.nat? ds = some n := by
    rw [Numeral.nat?, if_neg (by rw [← digits.length_eq]; omega), digits.number]
  rw [digits.written]
  simp only [unsignedNumber, digits.wholePart_eq follows.noDigit, Result.ofOption, fraction?_eq_none follows,
    exponent?_eq_none follows, read, bind, Except.bind, pure, Except.pure]

-- No word goes on from here.
def NoWord (start : Text) : Prop :=
  ∀ entry ∈ words, (entry.1.take start.length).isPrefixOf start = false

theorem noWord_digit : ∀ d < 10, NoWord [ofDigit d] := by
  unfold NoWord
  decide

theorem noWord_minus : ∀ d < 10, NoWord ['-', ofDigit d] := by
  unfold NoWord
  decide

theorem NoWord.findSome?_eq_none {start : Text} (h : NoWord start) (rest : Text) :
    words.findSome? (fun (word, v) => (after? word (start ++ rest)).map fun rest => (v, rest)) = none := by
  refine List.findSome?_eq_none_iff.mpr fun (word, v) mem => ?_
  have absent : after? word (start ++ rest) = none := by
    refine if_neg fun found => ?_
    have prefixed : word.take start.length <+: (start ++ rest).take start.length :=
      List.prefix_take_iff.mpr
        ⟨(List.take_prefix _ _).trans (List.isPrefixOf_iff_prefix.mp found), List.length_take_le _ _⟩
    rw [List.take_left] at prefixed
    exact Bool.eq_false_iff.mp (h (word, v) mem) (List.isPrefixOf_iff_prefix.mpr prefixed)
  simp only [absent]
  rfl

-- A number with its sign.
def signed (negative : Bool) (t : Text) : Text :=
  if negative then '-' :: t else t

theorem scalar_signed {d : Nat} (small : d < 10) (negative : Bool) (t : Text) :
    scalar (signed negative (ofDigit d :: t)) = unsignedNumber negative (ofDigit d :: t) := by
  cases negative
  case false =>
    have unsigned := (isDigit_ofDigit small).unsigned.left
    have none := (noWord_digit d small).findSome?_eq_none t
    simp only [List.cons_append, List.nil_append] at none
    simp only [signed, scalar, none, if_neg unsigned, Bool.false_eq_true, if_false]
  case true =>
    have none := (noWord_minus d small).findSome?_eq_none t
    simp only [List.cons_append, List.nil_append] at none
    simp only [signed, scalar, none, if_true]

theorem signed_append (negative : Bool) (t rest : Text) :
    signed negative t ++ rest = signed negative (t ++ rest) := by
  cases negative
  all_goals rfl

theorem ofInt_eq_signed (n : Int) : Text.ofInt n = signed (decide (n < 0)) (Text.ofNat n.natAbs) := by
  cases n
  case ofNat n => rfl
  case negSucc n => rw [signed, decide_eq_true (Int.negSucc_lt_zero n), if_pos rfl, Text.ofInt, Int.natAbs_negSucc]

theorem scalar_ofInt {n : Int} (short : (Text.ofNat n.natAbs).length ≤ Numeral.maxDigits)
    (follows : Follows rest) : scalar (Text.ofInt n ++ rest) = .ok (.int n, rest) := by
  have read := unsignedNumber_ofNat (decide (n < 0)) short follows
  have ⟨ds, digits⟩ := exists_digits n.natAbs
  have ⟨d, ds', small, eq⟩ := digits.exists_cons
  have number : (if decide (n < 0) = true then -(n.natAbs : Int) else n.natAbs) = n := by
    simp only [decide_eq_true_eq]
    split
    all_goals omega
  rw [digits.written, eq, List.map_cons, List.cons_append, number] at read
  rw [ofInt_eq_signed, signed_append, digits.written, eq, List.map_cons, List.cons_append,
    scalar_signed small, read]

theorem scalar_null : scalar (Text.ofString "null" ++ rest) = .ok (.null, rest) :=
  rfl

theorem scalar_bool (b : Bool) :
    scalar (render (.bool b) ++ rest) = .ok (.bool b, rest) := by
  cases b
  all_goals rfl

-- What begins a value: no white space, and neither bracket nor brace that closes.
structure Begins (c : CodePoint) : Prop where
  solid : c.isJsonBlank = false
  opens : c ≠ ']' ∧ c ≠ '}'

-- What begins a word or a number.
structure BeginsScalar (c : CodePoint) : Prop extends Begins c where
  apart : c ≠ '"' ∧ c ≠ '[' ∧ c ≠ '{'

instance (c : CodePoint) : Decidable (BeginsScalar c) :=
  decidable_of_iff ((c.isJsonBlank = false ∧ c ≠ ']' ∧ c ≠ '}') ∧ c ≠ '"' ∧ c ≠ '[' ∧ c ≠ '{')
    ⟨fun h => ⟨⟨h.left.left, h.left.right⟩, h.right⟩, fun h => ⟨⟨h.solid, h.opens⟩, h.apart⟩⟩

def StartsScalar (t : Text) : Prop :=
  ∃ c cs, t = c :: cs ∧ BeginsScalar c

theorem startsScalar_signed {d : Nat} (small : d < 10) (negative : Bool) (t : Text) :
    StartsScalar (signed negative (ofDigit d :: t)) := by
  have all : ∀ d < 10, BeginsScalar (ofDigit d) := by decide
  cases negative
  case false => exact ⟨_, _, rfl, all d small⟩
  case true => exact ⟨_, _, rfl, by decide⟩

theorem startsScalar_ofInt (n : Int) : StartsScalar (Text.ofInt n) := by
  have ⟨ds, digits⟩ := exists_digits n.natAbs
  have ⟨d, ds', small, eq⟩ := digits.exists_cons
  rw [ofInt_eq_signed, digits.written, eq, List.map_cons]
  exact startsScalar_signed small _ _

theorem startsScalar_bool (b : Bool) : StartsScalar (render (.bool b)) := by
  cases b
  all_goals exact ⟨_, _, rfl, by decide⟩

end SecretSync.Json
