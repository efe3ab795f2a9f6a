import Mathlib.Algebra.Group.Nat.Defs
import SecretSync.Number.Reader
import SecretSync.Proofs.Text.Split

/-!
Numbers in decimal. What is written for a number is read as that number, as long as it has no more
digits than a reader takes. Main statement: `int?_ofNat`.
-/

namespace SecretSync

namespace CodePoint

-- The digit of a number below 10.
def ofDigit (d : Nat) : CodePoint := ofNat (0x30 + d)

-- What readers of numerals ask about a code point.
structure IsDigit (c : CodePoint) (d : Nat) : Prop where
  ascii   : c.isAscii = true
  solid   : c.isNumeralBlank = false
  value   : c.digit? = some d
  unsigned : c ≠ '-' ∧ c ≠ '+'
  compact : c ≠ '_'

theorem isDigit_ofDigit {d : Nat} (h : d < 10) : IsDigit (ofDigit d) d := by
  have all : ∀ d < 10, (ofDigit d).isAscii = true ∧ (ofDigit d).isNumeralBlank = false ∧
      (ofDigit d).digit? = some d ∧ (ofDigit d ≠ '-' ∧ ofDigit d ≠ '+') ∧ ofDigit d ≠ '_' := by
    decide
  have ⟨ascii, solid, value, unsigned, compact⟩ := all d h
  exact ⟨ascii, solid, value, unsigned, compact⟩

theorem digit?_lt {c : CodePoint} {d : Nat} (h : c.digit? = some d) : d < 10 ∧ c = ofDigit d := by
  rw [digit?] at h
  split at h
  case isFalse => cases h
  case isTrue range =>
    cases h
    simp only [Bool.and_eq_true, decide_eq_true_eq] at range
    refine ⟨by omega, Fin.ext ?_⟩
    have : 0x30 + (c.val - 0x30) < 0x110000 := by omega
    rw [ofDigit, ofNat]
    simp only [Nat.mod_eq_of_lt this]
    omega

end CodePoint

open CodePoint (ofDigit isDigit_ofDigit)

namespace Text

theorem digitsWithin_eq (fuel n : Nat) (h : n < fuel) :
    ∃ ds : List Nat, ds ≠ [] ∧ (∀ d ∈ ds, d < 10) ∧ digitsWithin fuel n = ds.map ofDigit ∧
      Numeral.ofDigits ds = n := by
  induction fuel generalizing n
  case zero => omega
  case succ fuel hi =>
    simp only [digitsWithin]
    split
    case isTrue small => exact ⟨[n], by simp, by simpa using small, rfl, by simp [Numeral.ofDigits]⟩
    case isFalse =>
      -- The last digit comes after those of a tenth of the number.
      have ⟨ds, _, digits, written, number⟩ := hi (n / 10) (by omega)
      refine ⟨ds ++ [n % 10], by simp, ?_, by simp [written, ofDigit], ?_⟩
      · intro d hd
        cases List.mem_append.mp hd
        case inl hd => exact digits d hd
        case inr hd =>
          have := List.mem_singleton.mp hd
          omega
      · simp only [Numeral.ofDigits, List.foldl_append, List.foldl_cons, List.foldl_nil] at number ⊢
        omega

-- Only zero is written with a leading zero.
theorem head?_digitsWithin_ne (fuel : Nat) {n : Nat} (h : n < fuel) (positive : 0 < n) :
    (digitsWithin fuel n).head? ≠ some (ofDigit 0) := by
  induction fuel generalizing n
  case zero => omega
  case succ fuel hi =>
    simp only [digitsWithin]
    split
    case isTrue small =>
      have all : ∀ d < 10, 0 < d → CodePoint.ofNat (0x30 + d) ≠ ofDigit 0 := by decide
      simpa using all n small positive
    case isFalse =>
      have ⟨ds, nonempty, _, written, _⟩ := digitsWithin_eq fuel (n / 10) (by omega)
      have leading := hi (n := n / 10) (by omega) (by omega)
      obtain ⟨d, ds, eq⟩ := List.exists_cons_of_ne_nil nonempty
      rw [written, eq] at leading ⊢
      exact leading

theorem length_digitsWithin_le (fuel : Nat) {n k : Nat} (h : n < 10 ^ (k + 1)) :
    (digitsWithin fuel n).length ≤ k + 1 := by
  induction fuel generalizing n k
  case zero => exact Nat.zero_le _
  case succ fuel hi =>
    simp only [digitsWithin]
    split
    case isTrue => exact Nat.le_add_left 1 k
    case isFalse large =>
      cases k
      case zero => omega
      case succ k =>
        have := hi (n := n / 10) (k := k) (by omega)
        simp only [List.length_append, List.length_singleton]
        omega

-- A text of ASCII digits.
structure IsDecimal (t : Text) : Prop where
  nonempty : t ≠ []
  digits   : ∀ c ∈ t, c.digit?.isSome = true

-- The number that the ASCII digits of a text denote.
def decimal (t : Text) : Nat :=
  Numeral.ofDigits (t.filterMap CodePoint.digit?)

theorem IsDecimal.free {t : Text} {c : CodePoint} (decimal : t.IsDecimal) (apart : c.digit? = none) : c ∉ t := by
  intro mem
  have digit := decimal.digits c mem
  rw [apart] at digit
  cases digit

theorem map_ofDigit_filterMap {t : Text} (digits : ∀ c ∈ t, c.digit?.isSome = true) :
    (t.filterMap CodePoint.digit?).map ofDigit = t := by
  induction t
  case nil => rfl
  case cons c cs hi =>
    have ⟨first, others⟩ := List.forall_mem_cons.mp digits
    obtain ⟨d, value⟩ := Option.isSome_iff_exists.mp first
    rw [List.filterMap_cons_some value, List.map_cons, hi others, ← (CodePoint.digit?_lt value).right]

theorem trim_eq_self {p : CodePoint → Bool} {t : Text} (h : ∀ c ∈ t, p c = false) :
    trim p t = t := by
  have kept (t : Text) (h : ∀ c ∈ t, p c = false) : t.dropWhile p = t := by
    cases t
    case nil => rfl
    case cons c t => exact List.dropWhile_cons_of_neg (by simp [h c List.mem_cons_self])
  simp only [trim, dropRightWhile, kept t h]
  rw [kept t.reverse fun c hc => h c (List.mem_reverse.mp hc), List.reverse_reverse]

end Text

namespace Numeral

theorem toAscii?_eq_self {t : Text} (ascii : ∀ c ∈ t, c.isAscii = true) : toAscii? t = some t := by
  induction t
  case nil => rfl
  case cons c t hi =>
    have ⟨first, rest⟩ := List.forall_mem_cons.mp ascii
    have := hi rest
    simp only [toAscii?] at this
    simp [toAscii?, List.mapM_cons, first, this]

theorem splitSign_eq_self {t : Text} (h : ∀ c ∈ t, c ≠ '-' ∧ c ≠ '+') : splitSign t = (false, t) := by
  cases t
  case nil => rfl
  case cons c t =>
    have ⟨minus, plus⟩ := h c List.mem_cons_self
    simp [splitSign, minus, plus]

theorem digits?_map_ofDigit {ds : List Nat} (nonempty : ds ≠ []) (digits : ∀ d ∈ ds, d < 10) :
    digits? (ds.map ofDigit) = some ds := by
  have read : (ds.map ofDigit).mapM CodePoint.digit? = some ds := by
    clear nonempty
    induction ds
    case nil => rfl
    case cons d ds hi =>
      have ⟨first, rest⟩ := List.forall_mem_cons.mp digits
      simp [List.mapM_cons, (isDigit_ofDigit first).value, hi rest]
  -- No digits are set apart from others.
  have whole : Text.split '_' (ds.map ofDigit) = [ds.map ofDigit] := by
    refine Text.split_eq_singleton fun hc => ?_
    have ⟨d, hd, eq⟩ := List.mem_map.mp hc
    exact (isDigit_ofDigit (digits d hd)).compact eq
  simp [digits?, whole, List.mapM_cons, read, nonempty]

theorem forall_mem_map_ofDigit {p : CodePoint → Prop} {ds : List Nat} (digits : ∀ d ∈ ds, d < 10)
    (h : ∀ d < 10, p (ofDigit d)) : ∀ c ∈ ds.map ofDigit, p c := by
  intro c mem
  have ⟨d, mem, eq⟩ := List.mem_map.mp mem
  exact eq ▸ h d (digits d mem)

-- A text that stands for digits is read as their number.
theorem int?_of_toAscii? {t : Text} {ds : List Nat} (nonempty : ds ≠ []) (digits : ∀ d ∈ ds, d < 10)
    (ascii : toAscii? t = some (ds.map ofDigit)) : int? t = (nat? ds).map Int.ofNat := by
  have solid := Text.trim_eq_self (forall_mem_map_ofDigit digits fun _ h => (isDigit_ofDigit h).solid)
  have unsigned := splitSign_eq_self (forall_mem_map_ofDigit digits fun _ h => (isDigit_ofDigit h).unsigned)
  rw [int?, normalize?, ascii, Option.map_some, solid]
  simp only [Option.bind_eq_bind, Option.bind_some, unsigned, digits?_map_ofDigit nonempty digits]
  cases nat? ds
  all_goals rfl

-- Reading undoes writing.
theorem int?_ofNat {n : Nat} (h : (Text.ofNat n).length ≤ maxDigits) :
    int? (Text.ofNat n) = some (n : Int) := by
  have ⟨ds, nonempty, digits, written, number⟩ := Text.digitsWithin_eq (n + 1) n (Nat.lt_succ_self n)
  have ascii := toAscii?_eq_self (forall_mem_map_ofDigit digits fun _ h => (isDigit_ofDigit h).ascii)
  rw [Text.ofNat, written] at h ⊢
  rw [List.length_map] at h
  rw [int?_of_toAscii? nonempty digits ascii, nat?, if_neg (Nat.not_lt.mpr h), number]
  rfl

-- A numeral of ASCII digits is read unless there are too many of them.
theorem int?_of_isDecimal {t : Text} (decimal : t.IsDecimal) :
    int? t = if t.length ≤ maxDigits then some (t.decimal : Int) else none := by
  have values := Text.map_ofDigit_filterMap decimal.digits
  have digits : ∀ d ∈ t.filterMap CodePoint.digit?, d < 10 := by
    intro d mem
    have ⟨_, _, value⟩ := List.mem_filterMap.mp mem
    exact (CodePoint.digit?_lt value).left
  have ascii : ∀ c ∈ t, c.isAscii = true := by
    rw [← values]
    exact forall_mem_map_ofDigit digits fun _ h => (isDigit_ofDigit h).ascii
  have several : t.filterMap CodePoint.digit? ≠ [] := fun empty =>
    decimal.nonempty (by rw [← values, empty]; rfl)
  have length : (t.filterMap CodePoint.digit?).length = t.length := by
    conv => rhs; rw [← values, List.length_map]
  rw [int?_of_toAscii? several digits (values.symm ▸ toAscii?_eq_self ascii), nat?, length]
  by_cases short : t.length ≤ maxDigits
  case pos => rw [if_neg (Nat.not_lt.mpr short), if_pos short]; rfl
  case neg => rw [if_pos (Nat.lt_of_not_le short), if_neg short]; rfl

theorem int?_ofNat_of_lt {n k : Nat} (h : n < 10 ^ (k + 1)) (hk : k < maxDigits) :
    int? (Text.ofNat n) = some (n : Int) :=
  int?_ofNat (Nat.le_trans (Text.length_digitsWithin_le _ h) hk)

end Numeral

end SecretSync
