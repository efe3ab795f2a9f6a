import SecretSync.Proofs.Json.Scalar
import SecretSync.Proofs.Number.Float

/-!
Floats in JSON text are read back, with an exponent or without. Main statement: `scalar_float`.
-/

namespace SecretSync

open CodePoint (ofDigit isDigit_ofDigit)

namespace Numeral

theorem ofDigits_append_singleton (ds : List Nat) (d : Nat) : ofDigits (ds ++ [d]) = ofDigits ds * 10 + d := by
  simp only [ofDigits, List.foldl_append, List.foldl_cons, List.foldl_nil]

theorem ofDigits_append (ds es : List Nat) :
    ofDigits (ds ++ es) = ofDigits ds * 10 ^ es.length + ofDigits es := by
  induction es using List.reverseRecOn
  case nil => simp [ofDigits]
  case append_singleton es d hi =>
    rw [← List.append_assoc, ofDigits_append_singleton, ofDigits_append_singleton, hi, List.length_append,
      List.length_singleton, Nat.pow_succ]
    ring

theorem ofDigits_replicate_zero (k : Nat) : ofDigits (List.replicate k 0) = 0 := by
  induction k
  case zero => rfl
  case succ k hi => rw [List.replicate_succ', ofDigits_append_singleton, hi]

end Numeral

namespace Json

open Numeral (ofDigits)

variable {rest : Text} {ws fs es : List Nat}

-- The point and the digits behind it, if there are any.
def pointed (fs : List Nat) : Text :=
  if fs.isEmpty then [] else '.' :: fs.map ofDigit

-- The letter, sign and digits of an exponent.
def scaled (below : Bool) (es : List Nat) : Text :=
  'e' :: (if below then '-' else '+') :: es.map ofDigit

theorem pointed_of_ne_nil (nonempty : fs ≠ []) : pointed fs = CodePoint.ofChar '.' :: fs.map ofDigit :=
  if_neg (by simpa using nonempty)

theorem fraction?_pointed (nonempty : fs ≠ []) (small : ∀ d ∈ fs, d < 10) (apart : NoDigit rest) :
    fraction? (pointed fs ++ rest) = some (fs, rest) := by
  have taken := takeDigits_append small apart
  obtain ⟨d, fs, eq⟩ := List.exists_cons_of_ne_nil nonempty
  subst eq
  rw [pointed_of_ne_nil nonempty, List.cons_append, fraction?, if_pos rfl, taken]

theorem exponent?_scaled (nonempty : es ≠ []) (small : ∀ d ∈ es, d < 10) (apart : NoDigit rest) (below : Bool) :
    exponent? (scaled below es ++ rest) = some (if below then -(ofDigits es : Int) else ofDigits es, rest) := by
  have taken := takeDigits_append small apart
  have sign (t : Text) : Numeral.splitSign ((if below then ('-' : CodePoint) else '+') :: t) = (below, t) := by
    cases below
    all_goals rfl
  obtain ⟨d, es, eq⟩ := List.exists_cons_of_ne_nil nonempty
  subst eq
  rw [scaled, List.cons_append, List.cons_append, exponent?, if_pos (by decide), sign]
  simp only [taken]

theorem noDigit_pointed (apart : NoDigit rest) : NoDigit (pointed fs ++ rest) := by
  rw [pointed]
  split
  case isTrue => exact apart
  case isFalse => exact noDigit_cons rfl

theorem noDigit_scaled (below : Bool) : NoDigit (scaled below es ++ rest) :=
  noDigit_cons rfl

-- The text is read as the float that the decimal is rounded to, whatever follows.
structure ReadsDecimal (t : Text) (n : Nat) (e : Int) : Prop where
  start : ∃ d cs, d < 10 ∧ t = ofDigit d :: cs
  read  : ∀ negative rest, Follows rest →
    unsignedNumber negative (t ++ rest) = .ok (.float (Binary64.floatOfDecimal negative n e), rest)

theorem ReadsDecimal.scalar_eq {t : Text} {n : Nat} {e : Int} (reads : ReadsDecimal t n e) (negative : Bool)
    (follows : Follows rest) :
    scalar (signed negative t ++ rest) = .ok (.float (Binary64.floatOfDecimal negative n e), rest) := by
  have read := reads.read negative rest follows
  obtain ⟨d, cs, small, eq⟩ := reads.start
  subst eq
  rw [signed_append, List.cons_append, scalar_signed small]
  exact read

theorem ReadsDecimal.startsScalar {t : Text} {n : Nat} {e : Int} (reads : ReadsDecimal t n e) (negative : Bool) :
    StartsScalar (signed negative t) := by
  obtain ⟨d, cs, small, eq⟩ := reads.start
  subst eq
  exact startsScalar_signed small negative cs

-- Digits that can be the whole part of a number.
structure IsWhole (ws : List Nat) : Prop where
  nonempty : ws ≠ []
  small    : ∀ d ∈ ws, d < 10
  leading  : ws.head? ≠ some 0 ∨ ws = [0]

theorem IsWhole.read (whole : IsWhole ws) (apart : NoDigit rest) :
    wholePart (ws.map ofDigit ++ rest) = some (ws, rest) :=
  wholePart_append whole.nonempty whole.small whole.leading apart

theorem IsWhole.start (whole : IsWhole ws) (t : Text) : ∃ d cs, d < 10 ∧ ws.map ofDigit ++ t = ofDigit d :: cs := by
  obtain ⟨d, ds, eq⟩ := List.exists_cons_of_ne_nil whole.nonempty
  subst eq
  exact ⟨d, _, whole.small d List.mem_cons_self, rfl⟩

theorem readsDecimal_pointed (whole : IsWhole ws) (nonempty : fs ≠ []) (small : ∀ d ∈ fs, d < 10) :
    ReadsDecimal (ws.map ofDigit ++ pointed fs) (ofDigits (ws ++ fs)) (-fs.length) := by
  refine ⟨whole.start _, fun negative rest follows => ?_⟩
  rw [List.append_assoc]
  simp only [unsignedNumber, whole.read (noDigit_pointed follows.noDigit), Result.ofOption,
    fraction?_pointed nonempty small follows.noDigit, exponent?_eq_none follows, bind, Except.bind, pure, Except.pure,
    Option.getD_some, Option.getD_none, Int.zero_sub]

theorem readsDecimal_scaled (whole : IsWhole ws) (small : ∀ d ∈ fs, d < 10) (nonempty : es ≠ [])
    (small' : ∀ d ∈ es, d < 10) (below : Bool) :
    ReadsDecimal (ws.map ofDigit ++ pointed fs ++ scaled below es) (ofDigits (ws ++ fs))
      ((if below then -(ofDigits es : Int) else ofDigits es) - fs.length) := by
  refine ⟨List.append_assoc _ _ _ ▸ whole.start _, fun negative rest follows => ?_⟩
  have read := exponent?_scaled nonempty small' follows.noDigit below
  have apart : NoDigit (scaled below es ++ rest) := noDigit_scaled below
  rw [List.append_assoc, List.append_assoc]
  cases fs
  case nil =>
    have none : fraction? (scaled below es ++ rest) = none := rfl
    simp only [pointed, List.isEmpty_nil, if_true, List.nil_append, unsignedNumber, whole.read apart, Result.ofOption,
      none, read, bind, Except.bind, pure, Except.pure, Option.getD_some, Option.getD_none, List.append_nil]
  case cons d fs =>
    simp only [unsignedNumber, whole.read (noDigit_pointed apart), Result.ofOption,
      fraction?_pointed (List.cons_ne_nil d fs) small apart, read, bind, Except.bind, pure, Except.pure,
      Option.getD_some]

-- The text is read as the float nearest to the decimal.
def Stands (t : Text) (d : Decimal) : Prop :=
  ∃ n e, ReadsDecimal t n e ∧ (n : ℚ) * 10 ^ e = d.toRat ∧ -400 ≤ e

variable {d : Decimal} {ds : List Nat}

theorem zeros_eq (k : Nat) : List.replicate k ('0' : CodePoint) = (List.replicate k 0).map ofDigit := by
  rw [List.map_replicate]
  rfl

theorem lt_ten_replicate_zero (k : Nat) : ∀ d ∈ List.replicate k 0, d < 10 := by
  intro d mem
  rw [List.eq_of_mem_replicate mem]
  decide

theorem isWhole_zero : IsWhole [0] :=
  ⟨by decide, by decide, .inr rfl⟩

-- What begins a positive number can be followed by other digits.
theorem Digits.isWhole {n : Nat} (digits : Digits n ds) (positive : 0 < n) {ws : List Nat} (small : ∀ d ∈ ws, d < 10)
    (start : ws.head? = ds.head?) : IsWhole ws where
  nonempty := by
    intro empty
    apply digits.nonempty
    rw [empty] at start
    exact List.head?_eq_none_iff.mp start.symm
  small
  leading := .inl (start ▸ digits.head?_ne positive)

theorem Digits.toRat_eq (digits : Digits d.digits ds) : d.toRat = ofDigits ds * 10 ^ d.exponent := by
  rw [Decimal.toRat, digits.number]

-- The digits stand behind the point.
theorem stands_below (digits : Digits d.digits ds) (least : -400 ≤ d.exponent) {k : Nat}
    (point : d.exponent = -(k + ds.length : Nat)) :
    Stands ([0].map ofDigit ++ pointed (List.replicate k 0 ++ ds)) d := by
  have small := List.forall_mem_append.mpr ⟨lt_ten_replicate_zero k, digits.small⟩
  refine ⟨_, _, readsDecimal_pointed isWhole_zero (by simp [digits.nonempty]) small, ?_, ?_⟩
  · rw [digits.toRat_eq, List.length_append, List.length_replicate, point, ← List.append_assoc,
      show [0] ++ List.replicate k 0 = List.replicate (k + 1) 0 from rfl, Numeral.ofDigits_append,
      Numeral.ofDigits_replicate_zero, Nat.zero_mul, Nat.zero_add]
  · rw [List.length_append, List.length_replicate, ← point]
    exact least

-- The digits stand before the point.
theorem stands_above (digits : Digits d.digits ds) (positive : 0 < d.digits) {k : Nat} (point : d.exponent = k) :
    Stands ((ds ++ List.replicate k 0).map ofDigit ++ pointed [0]) d := by
  have small := List.forall_mem_append.mpr ⟨digits.small, lt_ten_replicate_zero k⟩
  have whole := digits.isWhole positive small (List.head?_append_of_ne_nil _ digits.nonempty)
  refine ⟨_, _, readsDecimal_pointed whole (by decide) (by decide), ?_, by decide⟩
  rw [digits.toRat_eq, Numeral.ofDigits_append_singleton, Numeral.ofDigits_append, Numeral.ofDigits_replicate_zero,
    List.length_replicate, point]
  simp

-- The digits stand on both sides of the point.
theorem stands_between (digits : Digits d.digits ds) (positive : 0 < d.digits) (least : -400 ≤ d.exponent) {k : Nat}
    (first : 0 < k) (last : k < ds.length) (point : d.exponent = -(ds.length - k : Nat)) :
    Stands ((ds.take k).map ofDigit ++ pointed (ds.drop k)) d := by
  have before : ∀ d ∈ ds.take k, d < 10 := fun d mem => digits.small d (List.mem_of_mem_take mem)
  have behind : ∀ d ∈ ds.drop k, d < 10 := fun d mem => digits.small d (List.mem_of_mem_drop mem)
  have whole := digits.isWhole positive before (by rw [List.head?_take, if_neg first.ne'])
  refine ⟨_, _, readsDecimal_pointed whole (by simp [last]) behind, ?_, ?_⟩
  · rw [digits.toRat_eq, List.take_append_drop, List.length_drop, point]
  · rw [List.length_drop, ← point]
    exact least

-- The point stands behind the first digit, with an exponent.
theorem stands_scaled (digits : Digits d.digits ds) (positive : 0 < d.digits) (least : -400 ≤ d.exponent)
    (nonempty : es ≠ []) (small : ∀ d ∈ es, d < 10) {below : Bool}
    (point : d.exponent + ds.length - 1 = if below then -(ofDigits es : Int) else ofDigits es) :
    Stands ((ds.take 1).map ofDigit ++ pointed (ds.drop 1) ++ scaled below es) d := by
  have before : ∀ d ∈ ds.take 1, d < 10 := fun d mem => digits.small d (List.mem_of_mem_take mem)
  have behind : ∀ d ∈ ds.drop 1, d < 10 := fun d mem => digits.small d (List.mem_of_mem_drop mem)
  have whole := digits.isWhole positive before (by rw [List.head?_take, if_neg (by decide)])
  have several := List.length_pos_iff.mpr digits.nonempty
  have exponent : (if below then -(ofDigits es : Int) else ofDigits es) - (ds.drop 1).length = d.exponent := by
    rw [← point, List.length_drop]
    omega
  refine ⟨_, _, readsDecimal_scaled whole behind nonempty small below, ?_, ?_⟩
  · rw [digits.toRat_eq, List.take_append_drop, exponent]
  · rwa [exponent]

-- The layout in terms of the digits of the decimal and of its exponent.
theorem decimal_eq (written : Text.ofNat d.digits = ds.map ofDigit) {power : Int}
    (first : d.exponent + ds.length - 1 = power) (nonempty : ds ≠ [])
    (written' : Text.padded 2 power.natAbs = es.map ofDigit) :
    numberLayout.decimal d =
      if -4 ≤ power && power ≤ 15 then
        if power < 0 then [0].map ofDigit ++ pointed (List.replicate (-power - 1).toNat 0 ++ ds)
        else if ds.length ≤ power.toNat + 1 then
          (ds ++ List.replicate (power.toNat + 1 - ds.length) 0).map ofDigit ++ pointed [0]
        else (ds.take (power.toNat + 1)).map ofDigit ++ pointed (ds.drop (power.toNat + 1))
      else (ds.take 1).map ofDigit ++ pointed (ds.drop 1) ++ scaled (power < 0) es := by
  rw [NumberLayout.decimal]
  simp only [written, List.length_map, first, written', numberLayout]
  split
  case isTrue =>
    split
    case isTrue =>
      rw [pointed_of_ne_nil (by simp [nonempty]), List.map_append, ← zeros_eq]
      rfl
    case isFalse =>
      split
      case isTrue =>
        rw [List.append_assoc, List.map_append, ← zeros_eq]
        rfl
      case isFalse few =>
        rw [List.append_assoc, ← List.map_take, ← List.map_drop, pointed_of_ne_nil (by simpa using few)]
        rfl
  case isFalse =>
    rw [List.append_assoc, ← List.map_take, ← List.map_drop, List.isEmpty_map]
    simp only [scaled, decide_eq_true_eq]
    rfl

-- An exponent has at least two digits.
theorem exists_padded (n : Nat) :
    ∃ es, es ≠ [] ∧ (∀ d ∈ es, d < 10) ∧ Text.padded 2 n = es.map ofDigit ∧ ofDigits es = n := by
  have ⟨ds, digits⟩ := exists_digits n
  refine ⟨List.replicate (2 - ds.length) 0 ++ ds, by simp [digits.nonempty],
    List.forall_mem_append.mpr ⟨lt_ten_replicate_zero _, digits.small⟩, ?_, ?_⟩
  · rw [Text.padded, digits.length_eq, digits.written, zeros_eq, List.map_append]
  · rw [Numeral.ofDigits_append, Numeral.ofDigits_replicate_zero, digits.number, Nat.zero_mul, Nat.zero_add]

theorem stands_decimal (positive : 0 < d.digits) (least : -400 ≤ d.exponent) : Stands (numberLayout.decimal d) d := by
  have ⟨ds, digits⟩ := exists_digits d.digits
  have several := List.length_pos_iff.mpr digits.nonempty
  generalize first : d.exponent + ds.length - 1 = power
  have ⟨es, nonempty, small, written, number⟩ := exists_padded power.natAbs
  rw [decimal_eq digits.written first digits.nonempty written]
  split
  case isTrue =>
    split
    case isTrue below => exact stands_below digits least (by omega)
    case isFalse above =>
      split
      case isTrue few => exact stands_above digits positive (by omega)
      case isFalse many => exact stands_between digits positive least (by omega) (by omega) (by omega)
  case isFalse =>
    refine stands_scaled digits positive least nonempty small ?_
    rw [first, number]
    simp only [decide_eq_true_eq]
    split
    all_goals omega

theorem float_of_finite {x : Float} {negative : Bool} {m : Nat} {e : Int}
    (h : Binary64.ofFloat x = .finite negative m e) :
    numberLayout.float x = signed negative
      (if m = 0 then [0].map ofDigit ++ pointed [0] else numberLayout.decimal (Decimal.shortest m e)) := by
  simp only [NumberLayout.float, h]
  split
  all_goals rfl

theorem digits_shortest_pos {m : Nat} {e : Int} (float : Binary64.IsPositive m e) :
    0 < (Decimal.shortest m e).digits := by
  have ⟨near, _⟩ := Decimal.shortest_holds float
  have positive := (Binary64.around_of_holds float.positive near).pos float.positive
  refine Nat.pos_of_ne_zero fun zero => ?_
  simp [Decimal.toRat, zero] at positive

-- A finite float is written as its sign and a decimal that is read as the float.
theorem exists_readsDecimal {x : Float} {negative : Bool} {m : Nat} {e : Int}
    (h : Binary64.ofFloat x = .finite negative m e) :
    ∃ t n e, numberLayout.float x = signed negative t ∧ ReadsDecimal t n e ∧
      Binary64.floatOfDecimal negative n e = x := by
  have written := float_of_finite h
  split at written
  case isTrue zero =>
    subst zero
    have reads : ReadsDecimal ([0].map ofDigit ++ pointed [0]) _ _ :=
      readsDecimal_pointed isWhole_zero (by decide) (by decide)
    exact ⟨_, _, _, written, reads, Binary64.floatOfDecimal_zero h _⟩
  case isFalse nonzero =>
    have float := (Binary64.toBits_of_finite h).right.resolve_left nonzero
    have ⟨_, least⟩ := Decimal.shortest_holds float
    have ⟨n, e, reads, eq, least⟩ := stands_decimal (digits_shortest_pos float) (by omega)
    exact ⟨_, n, e, written, reads, Binary64.floatOfDecimal_eq h float least eq⟩

theorem scalar_float (x : Float) (follows : Follows rest) :
    scalar (numberLayout.float x ++ rest) = .ok (.float x, rest) := by
  cases h : Binary64.ofFloat x
  case nan =>
    rw [NumberLayout.float, h, Binary64.eq_nan h]
    rfl
  case infinite negative =>
    rw [NumberLayout.float, h, Binary64.eq_infinity h]
    cases negative
    all_goals rfl
  case finite negative m e =>
    have ⟨t, n, e, written, reads, eq⟩ := exists_readsDecimal h
    rw [written, reads.scalar_eq negative follows, eq]

theorem startsScalar_float (x : Float) : StartsScalar (numberLayout.float x) := by
  cases h : Binary64.ofFloat x
  case nan =>
    rw [NumberLayout.float, h]
    exact ⟨_, _, rfl, by decide⟩
  case infinite negative =>
    rw [NumberLayout.float, h]
    cases negative
    all_goals exact ⟨_, _, rfl, by decide⟩
  case finite negative m e =>
    have ⟨t, n, e, written, reads, _⟩ := exists_readsDecimal h
    exact written ▸ reads.startsScalar negative

end Json

end SecretSync
