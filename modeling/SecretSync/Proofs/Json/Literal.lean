import Mathlib.Data.List.Chain
import SecretSync.Json.Parser
import SecretSync.Json.Printer
import SecretSync.Proofs.Text.Utf8
import SecretSync.Text.Hex

/-!
String literals are read back as the texts they were written for. A code point above 0xFFFF is written as two
escapes, which are joined again; so two surrogates that stand apart must not make a pair. Main statement:
`string_literal`.
-/

namespace SecretSync.Text

-- No high surrogate stands directly before a low one.
abbrev IsJoined (t : Text) : Prop :=
  t.IsChain fun high low => CodePoint.isPair high.val low.val = false

theorem isJoined_of_isScalar {t : Text} (scalar : t.isScalar = true) : t.IsJoined := by
  have free := List.all_eq_true.mp scalar
  induction t
  case nil => exact .nil
  case cons c t hi =>
    have ⟨first, others⟩ := List.forall_mem_cons.mp free
    cases t
    case nil => exact .singleton c
    case cons d t =>
      refine .cons_cons ?_ (hi (List.all_eq_true.mpr others) others)
      simp only [CodePoint.isSurrogate] at first
      simp [CodePoint.isPair] at first ⊢
      omega

end SecretSync.Text

namespace SecretSync.Json

-- Pieces before those of the rest of a literal.
def prepend (ps : List Piece) (found : Option (List Piece × Text)) : Option (List Piece × Text) :=
  found.map fun (rest, left) => (ps ++ rest, left)

section

variable {rest : Text}

theorem pieces_quote : pieces ('"' :: rest) = some ([], rest) := by
  rw [pieces.eq_def]
  rfl

theorem pieces_plain {c : CodePoint} (quote : c ≠ '"') (solid : 0x20 ≤ c.val) (escape : c ≠ '\\') :
    pieces (c :: rest) = prepend [.plain c] (pieces rest) := by
  rw [pieces.eq_def]
  simp only [if_neg quote, if_neg (Nat.not_lt.mpr solid), if_neg escape]
  cases pieces rest
  all_goals rfl

theorem pieces_short {e c : CodePoint} (unit : e ≠ 'u') (h : shortEscape? e = some c) :
    pieces ('\\' :: e :: rest) = prepend [.plain c] (pieces rest) := by
  have quote : CodePoint.ofChar '\\' ≠ '"' := by decide
  have solid : ¬(CodePoint.ofChar '\\').val < 0x20 := by decide
  rw [pieces.eq_def]
  simp only [if_neg quote, if_neg solid, if_pos, if_neg unit, h]
  cases pieces rest
  all_goals rfl

theorem pieces_unitEscape {n : Nat} (h : n < 0x10000) :
    pieces (unitEscape n ++ rest) = prepend [.unit n] (pieces rest) := by
  have quote : CodePoint.ofChar '\\' ≠ '"' := by decide
  have solid : ¬(CodePoint.ofChar '\\').val < 0x20 := by decide
  have digit (d : Nat) (h : d < 16) := (Hex.hexDigit?_digit d h).right
  have first := digit (n / 16 / 16 / 16 % 16) (by omega)
  have second := digit (n / 16 / 16 % 16) (by omega)
  have third := digit (n / 16 % 16) (by omega)
  have fourth := digit (n % 16) (by omega)
  have whole :
      ((n / 16 / 16 / 16 % 16 * 16 + n / 16 / 16 % 16) * 16 + n / 16 % 16) * 16 + n % 16 = n := by
    omega
  simp only [unitEscape, Text.hex, List.nil_append, List.cons_append]
  rw [pieces.eq_def]
  simp only [if_neg quote, if_neg solid, if_pos, codeUnit?, first, second, third, fourth, whole,
    Option.bind_eq_bind, Option.bind_some, pure]
  cases pieces rest
  all_goals rfl

theorem joinPieces_unit {n : Nat} {ps : List Piece}
    (apart : ∀ low, ps.head? = some (.unit low) → CodePoint.isPair n low = false) :
    joinPieces (.unit n :: ps) = CodePoint.ofNat n :: joinPieces ps := by
  cases ps
  case nil => rfl
  case cons p ps =>
    cases p
    case plain => simp only [joinPieces]
    case unit low => rw [joinPieces, if_neg (by simp [apart low rfl])]

theorem joinPieces_pair {c : CodePoint} (wide : ¬c.val < 0x10000) (ps : List Piece) :
    joinPieces (.unit (0xD800 + (c.val - 0x10000) / 0x400) ::
      .unit (0xDC00 + (c.val - 0x10000) % 0x400) :: ps) = c :: joinPieces ps := by
  have bound := c.isLt
  have pair : CodePoint.isPair (0xD800 + (c.val - 0x10000) / 0x400)
      (0xDC00 + (c.val - 0x10000) % 0x400) = true := by
    simp [CodePoint.isPair]
    omega
  have number : 0x10000 + (0xD800 + (c.val - 0x10000) / 0x400 - 0xD800) * 0x400 +
      (0xDC00 + (c.val - 0x10000) % 0x400 - 0xDC00) = c.val := by
    omega
  rw [joinPieces, if_pos pair, CodePoint.ofPair, number, CodePoint.ofNat_val]

end

-- The pieces that a text is read in: each code point as itself or as its code units.
inductive Spells : Text → List Piece → Prop
  | nil : Spells [] []
  | plain (c : CodePoint) {t : Text} {ps : List Piece} (rest : Spells t ps) : Spells (c :: t) (.plain c :: ps)
  | units (c : CodePoint) {t : Text} {ps : List Piece} (rest : Spells t ps) :
      Spells (c :: t) (c.units.map .unit ++ ps)

-- The first unit of a code point above 0xFFFF is no low surrogate.
theorem Spells.apart {t : Text} {ps : List Piece} (spells : Spells t ps) {c : CodePoint}
    (joined : Text.IsJoined (c :: t)) {low : Nat} (h : ps.head? = some (.unit low)) :
    CodePoint.isPair c.val low = false := by
  cases spells
  case nil => cases h
  case plain => cases h
  case units d _ _ _ =>
    rw [CodePoint.units] at h
    split at h
    case isTrue =>
      cases h
      exact (List.isChain_cons_cons.mp joined).left
    case isFalse wide =>
      cases h
      have bound := d.isLt
      simp [CodePoint.isPair]
      omega

theorem Spells.joinPieces_eq {t : Text} {ps : List Piece} (spells : Spells t ps) (joined : t.IsJoined) :
    joinPieces ps = t := by
  induction spells
  case nil => rfl
  case plain c t ps _ hi =>
    have := hi joined.tail
    rw [← this]
    simp only [joinPieces, this]
  case units c t ps rest hi =>
    have behind := hi joined.tail
    rw [CodePoint.units]
    split
    case isTrue =>
      have single := joinPieces_unit fun low => rest.apart joined
      rwa [CodePoint.ofNat_val, behind] at single
    case isFalse wide => exact (joinPieces_pair wide ps).trans (by rw [behind])

section

variable {rest : Text}

theorem pieces_units (c : CodePoint) :
    pieces (c.units.flatMap unitEscape ++ rest) = prepend (c.units.map .unit) (pieces rest) := by
  have bound := c.isLt
  rw [CodePoint.units]
  split
  case isTrue narrow => simp [pieces_unitEscape narrow]
  case isFalse wide =>
    simp only [List.flatMap_cons, List.flatMap_nil, List.append_nil, List.append_assoc]
    rw [pieces_unitEscape (by omega), pieces_unitEscape (by omega)]
    cases pieces rest
    all_goals rfl

theorem pieces_escape (c : CodePoint) :
    pieces (escape c ++ rest) = prepend [.plain c] (pieces rest) ∨
      pieces (escape c ++ rest) = prepend (c.units.map .unit) (pieces rest) := by
  rw [escape]
  split
  case isTrue same =>
    simp only [Bool.or_eq_true, decide_eq_true_eq] at same
    have own : c ≠ 'u' ∧ shortEscape? c = some c := by
      rcases same with eq | eq
      all_goals
        subst eq
        decide
    exact .inl (pieces_short own.left own.right)
  case isFalse special =>
    simp only [Bool.or_eq_true, decide_eq_true_eq, not_or] at special
    have number {n : Nat} (eq : c.val = n) : c = CodePoint.ofNat n := by
      rw [← eq, CodePoint.ofNat_val]
    split
    case isTrue newline =>
      subst newline
      exact .inl (pieces_short (by decide) rfl)
    split
    case isTrue carriage =>
      subst carriage
      exact .inl (pieces_short (by decide) rfl)
    split
    case isTrue tab =>
      subst tab
      exact .inl (pieces_short (by decide) rfl)
    split
    case isTrue backspace =>
      rw [number backspace]
      exact .inl (pieces_short (by decide) rfl)
    split
    case isTrue feed =>
      rw [number feed]
      exact .inl (pieces_short (by decide) rfl)
    split
    case isTrue printable =>
      simp only [Bool.and_eq_true, decide_eq_true_eq] at printable
      exact .inl (pieces_plain special.left printable.left special.right)
    case isFalse => exact .inr (pieces_units c)

theorem prepend_append (ps ps' : List Piece) (found : Option (List Piece × Text)) :
    prepend ps (prepend ps' found) = prepend (ps ++ ps') found := by
  simp [prepend, Function.comp_def]

theorem exists_spells (t rest : Text) :
    ∃ ps, Spells t ps ∧ pieces (t.flatMap escape ++ rest) = prepend ps (pieces rest) := by
  induction t
  case nil =>
    refine ⟨[], .nil, ?_⟩
    rw [List.flatMap_nil, List.nil_append]
    cases pieces rest
    all_goals rfl
  case cons c t hi =>
    obtain ⟨ps, spells, found⟩ := hi
    rw [List.flatMap_cons, List.append_assoc]
    rcases pieces_escape c with first | first
    · exact ⟨_, .plain c spells, by rw [first, found, prepend_append]; rfl⟩
    · exact ⟨_, .units c spells, by rw [first, found, prepend_append]⟩

-- A literal without its opening quote, whatever follows.
theorem string_literal {t : Text} (joined : t.IsJoined) (rest : Text) :
    string (t.flatMap escape ++ ('"' : CodePoint) :: rest) = .ok (t, rest) := by
  obtain ⟨ps, spells, found⟩ := exists_spells t ('"' :: rest)
  rw [string, found, pieces_quote]
  simp only [prepend, Option.map_some, List.append_nil]
  rw [← spells.joinPieces_eq joined]
  rfl

end

end SecretSync.Json
