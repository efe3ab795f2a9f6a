import SecretSync.Text.Utf8

/-!
The UTF-8 form of a text is read back as the text, so texts with the same form are the same, and nothing else is read.
Main statements: `ofUtf8?_utf8`, `utf8_injective`, `ofUtf8?_eq_some_iff`.
-/

namespace SecretSync

namespace CodePoint

theorem ofNat_val (c : CodePoint) : ofNat c.val = c :=
  Fin.ext (Nat.mod_eq_of_lt c.isLt)

theorem val_ofNat {n : Nat} (h : n < 0x110000) : (ofNat n).val = n :=
  Nat.mod_eq_of_lt h

theorem isSurrogate_ofNat {n : Nat} (bound : n < 0x110000) (apart : n < 0xD800 ∨ 0xDFFF < n) :
    (ofNat n).isSurrogate = false := by
  simp only [isSurrogate, val_ofNat bound, Bool.and_eq_false_iff, decide_eq_false_iff_not]
  omega

end CodePoint

namespace Text

variable {surrogates : Bool} {rest : Bytes}

theorem toNat_toUInt8 {n : Nat} (h : n < 0x100) : n.toUInt8.toNat = n := by
  rw [Nat.toUInt8_eq, UInt8.toNat_ofNat']
  exact Nat.mod_eq_of_lt h

theorem continuation?_toUInt8 {x : Nat} (h : x < 0x40) :
    continuation? (0x80 + x).toUInt8 = some x := by
  have value : (0x80 + x).toUInt8.toNat = 0x80 + x := toNat_toUInt8 (by omega)
  simp only [continuation?, UInt8.le_iff_toNat_le, value]
  simp
  omega

-- One lemma for each number of bytes. The bounds are those that the reader checks.

theorem ofUtf8With_one {n : Nat} (h : n < 0x80) :
    ofUtf8With surrogates (n.toUInt8 :: rest) =
      (ofUtf8With surrogates rest).map (CodePoint.ofNat n :: ·) := by
  have value : n.toUInt8.toNat = n := toNat_toUInt8 (by omega)
  have ascii : n.toUInt8 < 0x80 := by simpa [UInt8.lt_iff_toNat_lt, value] using h
  rw [ofUtf8With.eq_def]
  simp only [if_pos ascii, value]

theorem ofUtf8With_two {lead x n : Nat} (hx : x < 0x40) (eq : lead * 0x40 + x = n)
    (least : 0x80 ≤ n) (most : n < 0x800) :
    ofUtf8With surrogates ((0xC0 + lead).toUInt8 :: (0x80 + x).toUInt8 :: rest) =
      (ofUtf8With surrogates rest).map (CodePoint.ofNat n :: ·) := by
  have value : (0xC0 + lead).toUInt8.toNat = 0xC0 + lead := toNat_toUInt8 (by omega)
  have one : ¬(0xC0 + lead).toUInt8 < 0x80 := by simp [UInt8.lt_iff_toNat_lt]; omega
  have two : (0xC2 ≤ (0xC0 + lead).toUInt8 && (0xC0 + lead).toUInt8 ≤ 0xDF) = true := by
    simp [UInt8.le_iff_toNat_le]; omega
  rw [ofUtf8With.eq_def]
  simp only [if_neg one, if_pos two, continuation?_toUInt8 hx, value, Nat.add_sub_cancel_left,
    Option.bind_eq_bind, Option.bind_some, eq]
  cases ofUtf8With surrogates rest
  all_goals rfl

theorem ofUtf8With_three {lead x y n : Nat} (hx : x < 0x40) (hy : y < 0x40)
    (eq : lead * 0x1000 + x * 0x40 + y = n) (least : 0x800 ≤ n) (most : n < 0x10000)
    (scalar : surrogates = true ∨ ¬0xD800 ≤ n ∨ ¬n ≤ 0xDFFF) :
    ofUtf8With surrogates
        ((0xE0 + lead).toUInt8 :: (0x80 + x).toUInt8 :: (0x80 + y).toUInt8 :: rest) =
      (ofUtf8With surrogates rest).map (CodePoint.ofNat n :: ·) := by
  have value : (0xE0 + lead).toUInt8.toNat = 0xE0 + lead := toNat_toUInt8 (by omega)
  have one : ¬(0xE0 + lead).toUInt8 < 0x80 := by simp [UInt8.lt_iff_toNat_lt]; omega
  have two : ¬(0xC2 ≤ (0xE0 + lead).toUInt8 && (0xE0 + lead).toUInt8 ≤ 0xDF) = true := by
    simp [UInt8.le_iff_toNat_le]; omega
  have three : (0xE0 ≤ (0xE0 + lead).toUInt8 && (0xE0 + lead).toUInt8 ≤ 0xEF) = true := by
    simp [UInt8.le_iff_toNat_le]; omega
  have inRange : ¬(n < 0x800 || (!surrogates && 0xD800 ≤ n && n ≤ 0xDFFF)) = true := by
    cases surrogates
    all_goals simp at scalar ⊢
    all_goals omega
  rw [ofUtf8With.eq_def]
  -- The number is named before anything is put in its place, so that no literal is unfolded.
  simp -zeta only [if_neg one, if_neg two, if_pos three, continuation?_toUInt8 hx,
    continuation?_toUInt8 hy, value, Nat.add_sub_cancel_left, Option.bind_eq_bind]
  rw [Option.bind_some, Option.bind_some, eq]
  simp only [if_neg inRange]
  cases ofUtf8With surrogates rest
  all_goals rfl

theorem ofUtf8With_four {lead x y z n : Nat} (hx : x < 0x40) (hy : y < 0x40) (hz : z < 0x40)
    (eq : lead * 0x40000 + x * 0x1000 + y * 0x40 + z = n) (least : 0x10000 ≤ n)
    (most : n < 0x110000) :
    ofUtf8With surrogates ((0xF0 + lead).toUInt8 :: (0x80 + x).toUInt8 :: (0x80 + y).toUInt8 ::
        (0x80 + z).toUInt8 :: rest) =
      (ofUtf8With surrogates rest).map (CodePoint.ofNat n :: ·) := by
  have value : (0xF0 + lead).toUInt8.toNat = 0xF0 + lead := toNat_toUInt8 (by omega)
  have one : ¬(0xF0 + lead).toUInt8 < 0x80 := by simp [UInt8.lt_iff_toNat_lt]; omega
  have two : ¬(0xC2 ≤ (0xF0 + lead).toUInt8 && (0xF0 + lead).toUInt8 ≤ 0xDF) = true := by
    simp [UInt8.le_iff_toNat_le]; omega
  have three : ¬(0xE0 ≤ (0xF0 + lead).toUInt8 && (0xF0 + lead).toUInt8 ≤ 0xEF) = true := by
    simp [UInt8.le_iff_toNat_le]; omega
  have four : (0xF0 ≤ (0xF0 + lead).toUInt8 && (0xF0 + lead).toUInt8 ≤ 0xF4) = true := by
    simp [UInt8.le_iff_toNat_le]; omega
  have inRange : ¬(n < 0x10000 || 0x110000 ≤ n) = true := by simp; omega
  rw [ofUtf8With.eq_def]
  simp -zeta only [if_neg one, if_neg two, if_neg three, if_pos four, continuation?_toUInt8 hx,
    continuation?_toUInt8 hy, continuation?_toUInt8 hz, value, Nat.add_sub_cancel_left,
    Option.bind_eq_bind]
  rw [Option.bind_some, Option.bind_some, Option.bind_some, eq]
  simp only [if_neg inRange]
  cases ofUtf8With surrogates rest
  all_goals rfl

theorem ofUtf8With_utf8 {c : CodePoint} (h : surrogates = true ∨ c.isSurrogate = false) :
    ofUtf8With surrogates (c.utf8 ++ rest) = (ofUtf8With surrogates rest).map (c :: ·) := by
  have := c.isLt
  simp only [CodePoint.isSurrogate, Bool.and_eq_false_iff, decide_eq_false_iff_not] at h
  conv => rhs; rw [← CodePoint.ofNat_val c]
  simp only [CodePoint.utf8]
  split
  case isTrue one => exact ofUtf8With_one one
  case isFalse =>
    split
    case isTrue two => exact ofUtf8With_two (by omega) (by omega) (by omega) two
    case isFalse =>
      split
      case isTrue three => exact ofUtf8With_three (by omega) (by omega) (by omega) (by omega) three h
      case isFalse four =>
        exact ofUtf8With_four (by omega) (by omega) (by omega) (by omega) (by omega) this

theorem ofUtf8?_utf8 {t : Text} (h : t.isScalar = true) :
    ofUtf8? (t.flatMap CodePoint.utf8) = some t := by
  induction t
  case nil => rfl
  case cons c t hi =>
    simp only [isScalar, List.all_cons, Bool.and_eq_true, Bool.not_eq_true'] at h
    rw [List.flatMap_cons, ofUtf8?, ofUtf8With_utf8 (.inr h.left)]
    exact congrArg _ (hi h.right)

theorem utf8_injective {s t : Text} (hs : s.isScalar = true) (ht : t.isScalar = true)
    (h : s.flatMap CodePoint.utf8 = t.flatMap CodePoint.utf8) : s = t := by
  have read := ofUtf8?_utf8 hs
  rw [h, ofUtf8?_utf8 ht] at read
  exact (Option.some.inj read).symm

-- The other way round, what is read was written in the one form that the reader accepts.

theorem toUInt8_add {b : UInt8} {base : Nat} (h : base ≤ b.toNat) : (base + (b.toNat - base)).toUInt8 = b := by
  rw [Nat.add_sub_cancel' h, Nat.toUInt8_eq, UInt8.ofNat_toNat]

theorem continuation?_eq_some {b : UInt8} {x : Nat} (h : continuation? b = some x) :
    x < 0x40 ∧ (0x80 + x).toUInt8 = b := by
  rw [continuation?] at h
  split at h
  case isFalse => cases h
  case isTrue range =>
    simp only [Bool.and_eq_true, decide_eq_true_eq, UInt8.le_iff_toNat_le, UInt8.reduceToNat] at range
    have value : b.toNat - 0x80 = x := Option.some.inj h
    exact ⟨by omega, value ▸ toUInt8_add range.left⟩

theorem utf8_one {a : UInt8} (h : a < 0x80) : (CodePoint.ofNat a.toNat).utf8 = [a] := by
  have range : a.toNat < 0x80 := by simpa [UInt8.lt_iff_toNat_lt] using h
  have written : a.toNat.toUInt8 = a := by rw [Nat.toUInt8_eq, UInt8.ofNat_toNat]
  simp only [CodePoint.utf8, CodePoint.val_ofNat (n := a.toNat) (by omega), if_pos range, written]

theorem utf8_two {a b : UInt8} {x n : Nat} (least : 0xC2 ≤ a.toNat) (most : a.toNat ≤ 0xDF)
    (hb : continuation? b = some x) (eq : (a.toNat - 0xC0) * 0x40 + x = n) : (CodePoint.ofNat n).utf8 = [a, b] := by
  obtain ⟨hx, hb⟩ := continuation?_eq_some hb
  have lead : (0xC0 + n / 0x40).toUInt8 = a := by
    rw [show n / 0x40 = a.toNat - 0xC0 by omega, toUInt8_add (by omega)]
  have last : (0x80 + n % 0x40).toUInt8 = b := by rw [show n % 0x40 = x by omega, hb]
  simp only [CodePoint.utf8, CodePoint.val_ofNat (n := n) (by omega), if_neg (show ¬n < 0x80 by omega),
    if_pos (show n < 0x800 by omega), lead, last]

theorem utf8_three {a b c : UInt8} {x y n : Nat} (least : 0xE0 ≤ a.toNat) (most : a.toNat ≤ 0xEF)
    (hb : continuation? b = some x) (hc : continuation? c = some y)
    (eq : (a.toNat - 0xE0) * 0x1000 + x * 0x40 + y = n) (long : 0x800 ≤ n) :
    (CodePoint.ofNat n).utf8 = [a, b, c] := by
  obtain ⟨hx, hb⟩ := continuation?_eq_some hb
  obtain ⟨hy, hc⟩ := continuation?_eq_some hc
  have lead : (0xE0 + n / 0x1000).toUInt8 = a := by
    rw [show n / 0x1000 = a.toNat - 0xE0 by omega, toUInt8_add (by omega)]
  have middle : (0x80 + n / 0x40 % 0x40).toUInt8 = b := by rw [show n / 0x40 % 0x40 = x by omega, hb]
  have last : (0x80 + n % 0x40).toUInt8 = c := by rw [show n % 0x40 = y by omega, hc]
  simp only [CodePoint.utf8, CodePoint.val_ofNat (n := n) (by omega), if_neg (show ¬n < 0x80 by omega),
    if_neg (show ¬n < 0x800 by omega), if_pos (show n < 0x10000 by omega), lead, middle, last]

theorem utf8_four {a b c d : UInt8} {x y z n : Nat} (least : 0xF0 ≤ a.toNat)
    (hb : continuation? b = some x) (hc : continuation? c = some y) (hd : continuation? d = some z)
    (eq : (a.toNat - 0xF0) * 0x40000 + x * 0x1000 + y * 0x40 + z = n) (long : 0x10000 ≤ n) (bound : n < 0x110000) :
    (CodePoint.ofNat n).utf8 = [a, b, c, d] := by
  obtain ⟨hx, hb⟩ := continuation?_eq_some hb
  obtain ⟨hy, hc⟩ := continuation?_eq_some hc
  obtain ⟨hz, hd⟩ := continuation?_eq_some hd
  have lead : (0xF0 + n / 0x40000).toUInt8 = a := by
    rw [show n / 0x40000 = a.toNat - 0xF0 by omega, toUInt8_add (by omega)]
  have second : (0x80 + n / 0x1000 % 0x40).toUInt8 = b := by rw [show n / 0x1000 % 0x40 = x by omega, hb]
  have third : (0x80 + n / 0x40 % 0x40).toUInt8 = c := by rw [show n / 0x40 % 0x40 = y by omega, hc]
  have last : (0x80 + n % 0x40).toUInt8 = d := by rw [show n % 0x40 = z by omega, hd]
  simp only [CodePoint.utf8, CodePoint.val_ofNat bound, if_neg (show ¬n < 0x80 by omega),
    if_neg (show ¬n < 0x800 by omega), if_neg (show ¬n < 0x10000 by omega), lead, second, third, last]

theorem utf8?_cons {c : CodePoint} {t : Text} {front back : Bytes} (first : c.utf8 = front)
    (scalar : c.isSurrogate = false) (h : t.utf8? = some back) : utf8? (c :: t) = some (front ++ back) := by
  rw [utf8?] at h ⊢
  split at h
  case isFalse => cases h
  case isTrue rest =>
    cases h
    have all : isScalar (c :: t) = true := by
      rw [isScalar, List.all_cons, scalar]
      exact rest
    rw [if_pos all, List.flatMap_cons, first]

theorem utf8?_of_ofUtf8? {bytes : Bytes} {t : Text} (h : ofUtf8? bytes = some t) : t.utf8? = some bytes := by
  rw [ofUtf8?] at h
  induction bytes using ofUtf8With.induct generalizing t
  case case1 => cases h; rfl
  case case2 a rest one hi =>
    rw [ofUtf8With.eq_def] at h
    simp only [if_pos one] at h
    obtain ⟨tail, read, eq⟩ := Option.map_eq_some_iff.mp h
    have range : a.toNat < 0x80 := by simpa [UInt8.lt_iff_toNat_lt] using one
    exact eq ▸ utf8?_cons (utf8_one one) (CodePoint.isSurrogate_ofNat (by omega) (by omega)) (hi read)
  case case3 a one two b rest hi =>
    rw [ofUtf8With, if_neg one, if_pos two] at h
    simp only [Option.bind_eq_bind, Option.bind_eq_some_iff, Option.pure_def, Option.some.injEq] at h
    obtain ⟨x, hb, tail, read, eq⟩ := h
    simp only [Bool.and_eq_true, decide_eq_true_eq, UInt8.le_iff_toNat_le, UInt8.reduceToNat] at two
    have ⟨bound, _⟩ := continuation?_eq_some hb
    exact eq ▸ utf8?_cons (utf8_two two.left two.right hb rfl)
      (CodePoint.isSurrogate_ofNat (by omega) (by omega)) (hi read)
  case case5 a one two three b c rest hi =>
    rw [ofUtf8With, if_neg one, if_neg two, if_pos three] at h
    simp only [Option.bind_eq_bind, Option.bind_eq_some_iff, Option.pure_def] at h
    obtain ⟨x, hb, y, hc, h⟩ := h
    simp only [Bool.and_eq_true, decide_eq_true_eq, UInt8.le_iff_toNat_le, UInt8.reduceToNat] at three
    have ⟨_, _⟩ := continuation?_eq_some hb
    have ⟨_, _⟩ := continuation?_eq_some hc
    split at h
    case isTrue => cases h
    case isFalse range =>
      simp only [Option.bind_eq_some_iff, Option.some.injEq] at h
      obtain ⟨tail, read, eq⟩ := h
      simp at range
      exact eq ▸ utf8?_cons (utf8_three three.left three.right hb hc rfl (by omega))
        (CodePoint.isSurrogate_ofNat (by omega) (by omega)) (hi read)
  case case7 a one two three four b c d rest hi =>
    rw [ofUtf8With, if_neg one, if_neg two, if_neg three, if_pos four] at h
    simp only [Option.bind_eq_bind, Option.bind_eq_some_iff, Option.pure_def] at h
    obtain ⟨x, hb, y, hc, z, hd, h⟩ := h
    simp only [Bool.and_eq_true, decide_eq_true_eq, UInt8.le_iff_toNat_le, UInt8.reduceToNat] at four
    split at h
    case isTrue => cases h
    case isFalse range =>
      simp only [Option.bind_eq_some_iff, Option.some.injEq] at h
      obtain ⟨tail, read, eq⟩ := h
      simp at range
      exact eq ▸ utf8?_cons (utf8_four four.left hb hc hd rfl (by omega) (by omega))
        (CodePoint.isSurrogate_ofNat (by omega) (by omega)) (hi read)
  -- Too few bytes follow the first one, or it leads no character.
  case case4 one two short =>
    rw [ofUtf8With.eq_def] at h
    simp only [if_neg one, if_pos two] at h
    cases h
  case case6 one two three short =>
    rw [ofUtf8With.eq_def] at h
    simp only [if_neg one, if_neg two, if_pos three] at h
    cases h
  case case8 one two three four short =>
    rw [ofUtf8With.eq_def] at h
    simp only [if_neg one, if_neg two, if_neg three, if_pos four] at h
    cases h
  case case9 one two three four =>
    rw [ofUtf8With.eq_def] at h
    simp only [if_neg one, if_neg two, if_neg three, if_neg four] at h
    cases h

theorem ofUtf8?_eq_some_iff {bytes : Bytes} {t : Text} : ofUtf8? bytes = some t ↔ t.utf8? = some bytes := by
  constructor
  case mp => exact utf8?_of_ofUtf8?
  case mpr =>
    intro h
    rw [utf8?] at h
    split at h
    case isTrue scalar => exact Option.some.inj h ▸ ofUtf8?_utf8 scalar
    case isFalse => cases h

end Text

end SecretSync
