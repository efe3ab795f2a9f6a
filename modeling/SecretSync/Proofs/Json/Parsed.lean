import SecretSync.Proofs.Json.Documents
import SecretSync.Proofs.Json.Faults
import SecretSync.Proofs.Json.Scalar

/-!
What is read from JSON text are documents that JSON text can hold, nested no deeper than there is room for. Surrogates
that are read apart make no pair, as those that stand one after the other are joined. Main statements:
`isJson_of_parse`, `isJoined_of_parse`, `depth_le_of_parse`, `parse_failsOnly`.
-/

namespace SecretSync.Json

open CodePoint (ofDigit)
open Result (FailsOnly failsOnly_ok failsOnly_error failsOnly_ofOption)

variable {α β : Type} {P : α → Prop} {Q : β → Prop} {room : Nat} {s t : Text}

-- What a reader reads has a property, and what it leaves is the end of the text. There is a reason if it fails.
structure Gives (P : α → Prop) (room : Nat) (t : Text) (result : Result (α × Text)) : Prop where
  ok    : ∀ a rest, result = .ok (a, rest) → P a ∧ rest <:+ t
  error : FailsOnly (Refuses room t) result

theorem gives_ok {a : α} {rest : Text} (h : P a) (suffix : rest <:+ t) : Gives P room t (.ok (a, rest)) where
  ok b rest' eq := by
    cases eq
    exact ⟨h, suffix⟩
  error := failsOnly_ok _

theorem gives_error {fault : Fault} (h : Refuses room t fault) : Gives P room t (.error fault) where
  ok := nofun
  error := failsOnly_error h

theorem gives_malformed : Gives P room t (.error .malformedJson) :=
  gives_error (.inl malformed)

theorem gives_of_unreadable {result : Result (α × Text)} (ok : ∀ a rest, result = .ok (a, rest) → P a ∧ rest <:+ t)
    (error : FailsOnly Unreadable result) : Gives P room t result where
  ok
  error := error.mono fun _ => .inl

theorem Gives.of_suffix {result : Result (α × Text)} (h : Gives P room s result) (suffix : s <:+ t) :
    Gives P room t result where
  ok a rest eq :=
    have ⟨holds, behind⟩ := h.ok a rest eq
    ⟨holds, behind.trans suffix⟩
  error := h.error.mono fun _ refuses => refuses.of_suffix suffix

-- A bracket takes room.
theorem Gives.enter {c : CodePoint} {result : Result (α × Text)} (h : Gives P room t result)
    (opens : c = '[' ∨ c = '{') : Gives P (room + 1) (c :: t) result where
  ok a rest eq :=
    have ⟨holds, suffix⟩ := h.ok a rest eq
    ⟨holds, suffix.trans (List.suffix_cons c t)⟩
  error := h.error.mono fun _ refuses => refuses.enter opens

theorem Gives.bind {result : Result (α × Text)} {f : α × Text → Result (β × Text)} (first : Gives P room t result)
    (next : ∀ a rest, P a → rest <:+ t → Gives Q room rest (f (a, rest))) : Gives Q room t (result >>= f) := by
  cases result
  case error fault => exact gives_error (first.error fault rfl)
  case ok read =>
    obtain ⟨a, rest⟩ := read
    have ⟨holds, suffix⟩ := first.ok a rest rfl
    exact (next a rest holds suffix).of_suffix suffix

-- Numbers.

theorem takeDigits_spec (t : Text) :
    (∀ d ∈ (Numeral.takeDigits t).1, d < 10) ∧ (Numeral.takeDigits t).2 <:+ t := by
  induction t
  case nil => exact ⟨List.forall_mem_nil _, List.suffix_refl _⟩
  case cons c cs hi =>
    rw [Numeral.takeDigits]
    cases value : c.digit?
    case none => exact ⟨List.forall_mem_nil _, List.suffix_refl _⟩
    case some d =>
      have small := (CodePoint.digit?_lt value).left
      exact ⟨List.forall_mem_cons.mpr ⟨small, hi.left⟩, hi.right.trans (List.suffix_cons c cs)⟩

theorem wholePart_spec {ds : List Nat} {rest : Text} (h : wholePart t = some (ds, rest)) :
    (∀ d ∈ ds, d < 10) ∧ rest <:+ t := by
  cases t
  case nil => cases h
  case cons c cs =>
    rw [wholePart.eq_def] at h
    dsimp only at h
    split at h
    · cases h
    · cases h
      exact ⟨by decide, List.suffix_cons _ _⟩
    · have taken := takeDigits_spec (c :: cs)
      rw [Option.some.inj h] at taken
      exact taken

theorem fraction?_suffix {ds : List Nat} {rest : Text} (h : fraction? t = some (ds, rest)) : rest <:+ t := by
  cases t
  case nil => cases h
  case cons c cs =>
    have taken := (takeDigits_spec cs).right
    rw [fraction?] at h
    split at h
    case isFalse => cases h
    case isTrue =>
      split at h
      · cases h
      · rw [Option.some.inj h] at taken
        exact taken.trans (List.suffix_cons c cs)

theorem splitSign_suffix (t : Text) : (Numeral.splitSign t).2 <:+ t := by
  cases t
  case nil => exact List.suffix_refl _
  case cons c cs =>
    rw [Numeral.splitSign]
    split
    · exact List.suffix_cons c cs
    split
    · exact List.suffix_cons c cs
    · exact List.suffix_refl _

theorem exponent?_suffix {n : Int} {rest : Text} (h : exponent? t = some (n, rest)) : rest <:+ t := by
  cases t
  case nil => cases h
  case cons c cs =>
    have sign := splitSign_suffix cs
    have taken := (takeDigits_spec (Numeral.splitSign cs).2).right
    rw [exponent?] at h
    split at h
    case isFalse => cases h
    case isTrue =>
      simp only at h
      split at h
      · cases h
      next digits left _ eq =>
        cases h
        rw [eq] at taken
        exact (taken.trans sign).trans (List.suffix_cons c cs)

theorem ofDigits_lt {ds : List Nat} (small : ∀ d ∈ ds, d < 10) : Numeral.ofDigits ds < 10 ^ ds.length := by
  induction ds using List.reverseRecOn
  case nil => exact Nat.one_pos
  case append_singleton ds d hi =>
    have ⟨others, last⟩ := List.forall_mem_append.mp small
    have bound := hi others
    have last := last d (List.mem_singleton.mpr rfl)
    rw [Numeral.ofDigits, List.foldl_append, List.foldl_cons, List.foldl_nil, ← Numeral.ofDigits, List.length_append,
      List.length_singleton, Nat.pow_succ]
    omega

variable {Kind : Text → Prop}

-- A number has no more digits than those that it is read from.
theorem isJson_of_nat? {ds : List Nat} {n : Nat} (small : ∀ d ∈ ds, d < 10) (h : Numeral.nat? ds = some n)
    (negative : Bool) : (Value.int (if negative then -(n : Int) else n)).IsJson Kind := by
  rw [Numeral.nat?] at h
  split at h
  case isTrue => cases h
  case isFalse short =>
    cases h
    have bound : Numeral.ofDigits ds < 10 ^ Numeral.maxDigits :=
      Nat.lt_of_lt_of_le (ofDigits_lt small) (Nat.pow_le_pow_right (by decide) (Nat.le_of_not_lt short))
    obtain ⟨k, eq⟩ : ∃ k, Numeral.maxDigits = k + 1 := ⟨_, rfl⟩
    have length : (Text.ofNat (Numeral.ofDigits ds)).length ≤ Numeral.maxDigits := by
      rw [eq] at bound ⊢
      exact Text.length_digitsWithin_le _ bound
    cases negative
    case false => exact .int length
    case true => exact .int (by rwa [if_pos rfl, Int.natAbs_neg])

-- A value of which nothing is nested deeper than there is room for.
structure Fits (Kind : Text → Prop) (room : Nat) (v : Value) : Prop where
  json    : v.IsJson Kind
  shallow : v.depth ≤ room

theorem fits_float (x : Float) : Fits Kind room (.float x) :=
  ⟨.float x, Nat.zero_le _⟩

theorem unsignedNumber_fits {negative : Bool} {v : Value} {left : Text}
    (h : unsignedNumber negative t = .ok (v, left)) : Fits Kind room v ∧ left <:+ t := by
  simp only [unsignedNumber, Result.bind_eq_ok_iff, Result.ofOption_eq_ok_iff] at h
  obtain ⟨⟨whole, rest⟩, first, h⟩ := h
  obtain ⟨small, behind⟩ := wholePart_spec first
  dsimp only at h
  cases fraction : fraction? rest
  case none =>
    rw [fraction] at h
    cases exponent : exponent? rest
    case none =>
      simp only [exponent, Result.bind_eq_ok_iff, Result.ofOption_eq_ok_iff, Result.pure_eq_ok_iff] at h
      obtain ⟨n, read, eq⟩ := h
      cases eq
      exact ⟨⟨isJson_of_nat? small read negative, Nat.zero_le _⟩, behind⟩
    case some found =>
      rw [exponent] at h
      cases h
      exact ⟨fits_float _, (exponent?_suffix exponent).trans behind⟩
  case some found =>
    rw [fraction] at h
    have behind := (fraction?_suffix fraction).trans behind
    cases exponent : exponent? found.2
    case none =>
      simp only [exponent] at h
      cases h
      exact ⟨fits_float _, behind⟩
    case some last =>
      simp only [exponent] at h
      cases h
      exact ⟨fits_float _, (exponent?_suffix exponent).trans behind⟩

theorem fits_words : ∀ entry ∈ words, Fits Kind room entry.2 := by
  have flat {v : Value} (json : v.IsJson Kind) (depth : v.depth = 0) : Fits Kind room v :=
    ⟨json, depth ▸ Nat.zero_le _⟩
  simp only [words, List.forall_mem_cons]
  exact ⟨flat .null rfl, flat (.bool _) rfl, flat (.bool _) rfl, fits_float _, fits_float _, fits_float _,
    List.forall_mem_nil _⟩

theorem gives_scalar (t : Text) : Gives (Fits Kind room) room t (scalar t) := by
  refine gives_of_unreadable (fun v rest h => ?_) (scalar_failsOnly t)
  rw [scalar.eq_def] at h
  split at h
  case h_1 found word =>
    cases h
    obtain ⟨entry, mem, eq⟩ := List.exists_of_findSome?_eq_some word
    obtain ⟨rest, after, eq⟩ := Option.map_eq_some_iff.mp eq
    cases eq
    rw [after?] at after
    split at after
    case isFalse => cases after
    case isTrue =>
      cases after
      exact ⟨fits_words entry mem, List.drop_suffix _ _⟩
  case h_2 =>
    split at h
    case h_1 c cs _ =>
      split at h
      case isTrue => exact (unsignedNumber_fits h).imp_right fun suffix => suffix.trans (List.suffix_cons _ _)
      case isFalse => exact unsignedNumber_fits h
    case h_2 => cases h

-- Strings.

-- What a literal without surrogates is read in: characters, and escaped units of 16 bits.
inductive Piece.IsClean : Piece → Prop
  | plain {c : CodePoint} (scalar : c.isSurrogate = false) : IsClean (.plain c)
  | unit {n : Nat} (small : n < 0x10000) : IsClean (.unit n)

theorem codeUnit?_lt {a b c d : CodePoint} {n : Nat} (h : codeUnit? a b c d = some n) : n < 0x10000 := by
  have digit {c : CodePoint} {n : Nat} (h : c.hexDigit? = some n) : n < 16 := by
    rw [CodePoint.hexDigit?] at h
    simp only [Bool.and_eq_true, decide_eq_true_eq] at h
    split at h
    · cases h
      omega
    split at h
    · cases h
      omega
    split at h
    · cases h
      omega
    · cases h
  simp only [codeUnit?, Option.bind_eq_bind, Option.bind_eq_some_iff, pure, Option.some.injEq] at h
  obtain ⟨w, first, x, second, y, third, z, fourth, eq⟩ := h
  have := digit first
  have := digit second
  have := digit third
  have := digit fourth
  omega

theorem isSurrogate_shortEscape {e c : CodePoint} (h : shortEscape? e = some c) : c.isSurrogate = false := by
  rw [shortEscape?] at h
  split at h
  case isTrue same =>
    cases h
    simp only [Bool.or_eq_true, decide_eq_true_eq] at same
    rcases same with (eq | eq) | eq
    all_goals
      subst eq
      rfl
  split at h
  · cases h
    decide
  split at h
  · cases h
    decide
  split at h
  · cases h
    rfl
  split at h
  · cases h
    rfl
  split at h
  · cases h
    rfl
  · cases h

theorem pieces_spec {t rest : Text} {ps : List Piece} (h : pieces t = some (ps, rest)) :
    rest <:+ t ∧ (t.isScalar = true → ∀ p ∈ ps, p.IsClean) := by
  fun_induction pieces t generalizing ps rest
  case case1 => cases h
  case case2 cs =>
    cases h
    exact ⟨List.suffix_cons _ _, fun _ => List.forall_mem_nil _⟩
  case case3 => cases h
  case case4 => cases h
  case case5 w x y z cs _ _ hi =>
    simp only [Option.bind_eq_bind, Option.bind_eq_some_iff] at h
    obtain ⟨n, unit, read, found, eq⟩ := h
    cases eq
    have ⟨suffix, clean⟩ := hi found
    refine ⟨suffix.trans ⟨[_, _, w, x, y, z], rfl⟩,
      fun scalar => List.forall_mem_cons.mpr ⟨.unit (codeUnit?_lt unit), clean ?_⟩⟩
    simp only [Text.isScalar, List.all_cons, Bool.and_eq_true] at scalar
    exact scalar.right.right.right.right.right.right
  case case6 => cases h
  case case7 e cs _ _ _ hi =>
    simp only [Option.bind_eq_bind, Option.bind_eq_some_iff] at h
    obtain ⟨c, short, read, found, eq⟩ := h
    cases eq
    have ⟨suffix, clean⟩ := hi found
    refine ⟨suffix.trans ⟨[_, e], rfl⟩, fun scalar =>
      List.forall_mem_cons.mpr ⟨.plain (isSurrogate_shortEscape short), clean ?_⟩⟩
    simp only [Text.isScalar, List.all_cons, Bool.and_eq_true] at scalar
    exact scalar.right.right
  case case8 c cs _ _ _ hi =>
    simp only [Option.bind_eq_bind, Option.bind_eq_some_iff] at h
    obtain ⟨read, found, eq⟩ := h
    cases eq
    have ⟨suffix, clean⟩ := hi found
    refine ⟨suffix.trans (List.suffix_cons c cs), fun scalar => ?_⟩
    simp only [Text.isScalar, List.all_cons, Bool.and_eq_true, Bool.not_eq_true'] at scalar
    exact List.forall_mem_cons.mpr ⟨.plain scalar.left, clean scalar.right⟩

theorem isPair_eq_false_left {c : CodePoint} (scalar : c.isSurrogate = false) (n : Nat) :
    CodePoint.isPair c.val n = false := by
  simp [CodePoint.isSurrogate, CodePoint.isPair] at scalar ⊢
  omega

theorem isPair_eq_false_right {c : CodePoint} (scalar : c.isSurrogate = false) (n : Nat) :
    CodePoint.isPair n c.val = false := by
  simp [CodePoint.isSurrogate, CodePoint.isPair] at scalar ⊢
  omega

theorem isSurrogate_ofPair {high low : Nat} (pair : CodePoint.isPair high low = true) :
    (CodePoint.ofPair high low).isSurrogate = false := by
  simp only [CodePoint.isPair, Bool.and_eq_true, decide_eq_true_eq] at pair
  have val : (CodePoint.ofPair high low).val = 0x10000 + (high - 0xD800) * 0x400 + (low - 0xDC00) :=
    CodePoint.val_ofNat (by omega)
  simp [CodePoint.isSurrogate, val]
  omega

-- Only from a piece that is a surrogate does a text begin with one.
theorem head?_joinPieces {ps : List Piece} {c : CodePoint} (clean : ∀ p ∈ ps, p.IsClean)
    (h : (joinPieces ps).head? = some c) : c.isSurrogate = false ∨ ps.head? = some (.unit c.val) := by
  have unit {n : Nat} {ps : List Piece} (clean : ∀ p ∈ Piece.unit n :: ps, p.IsClean) : n < 0x110000 := by
    cases clean _ List.mem_cons_self
    case unit small => exact Nat.lt_trans small (by decide)
  fun_cases joinPieces ps
  case case1 => cases h
  case case2 =>
    simp only [joinPieces] at h
    cases h
    cases clean _ List.mem_cons_self
    exact .inl (by assumption)
  case case3 n =>
    obtain rfl : CodePoint.ofNat n = c := Option.some.inj h
    exact .inr (by rw [CodePoint.val_ofNat (unit clean)]; rfl)
  case case4 pair =>
    rw [joinPieces, if_pos pair] at h
    obtain rfl := Option.some.inj h
    exact .inl (isSurrogate_ofPair pair)
  case case5 single =>
    rw [joinPieces, if_neg single] at h
    obtain rfl := Option.some.inj h
    exact .inr (by rw [CodePoint.val_ofNat (unit clean)]; rfl)
  case case6 =>
    simp only [joinPieces] at h
    obtain rfl := Option.some.inj h
    exact .inr (by rw [CodePoint.val_ofNat (unit clean)]; rfl)

theorem isJoined_joinPieces {ps : List Piece} (clean : ∀ p ∈ ps, p.IsClean) : (joinPieces ps).IsJoined := by
  fun_induction joinPieces ps
  case case1 => exact .nil
  case case2 c rest hi =>
    have ⟨first, others⟩ := List.forall_mem_cons.mp clean
    cases first
    case plain scalar => exact List.isChain_cons.mpr ⟨fun d _ => isPair_eq_false_left scalar d.val, hi others⟩
  case case3 => exact .singleton _
  case case4 pair hi =>
    have others := (List.forall_mem_cons.mp (List.forall_mem_cons.mp clean).right).right
    exact List.isChain_cons.mpr ⟨fun d _ => isPair_eq_false_left (isSurrogate_ofPair pair) d.val, hi others⟩
  case case5 high low rest single hi =>
    have ⟨first, others⟩ := List.forall_mem_cons.mp clean
    cases first
    case unit small =>
      refine List.isChain_cons.mpr ⟨fun d head => ?_, hi others⟩
      rcases head?_joinPieces others head with scalar | eq
      · exact isPair_eq_false_right scalar _
      · cases eq
        rw [CodePoint.val_ofNat (Nat.lt_trans small (by decide))]
        simpa using single
  case case6 n c rest hi =>
    have ⟨_, others⟩ := List.forall_mem_cons.mp clean
    have ⟨second, others⟩ := List.forall_mem_cons.mp others
    cases second
    case plain scalar =>
      refine .cons_cons (isPair_eq_false_right scalar _) (List.isChain_cons.mpr ⟨fun d _ => ?_, hi others⟩)
      exact isPair_eq_false_left scalar d.val

-- Documents.

-- Texts whose ends are of the same kind, and what the string literals in them are read as.
structure Carries (Allowed Kind : Text → Prop) : Prop where
  hereditary : ∀ s t, Allowed t → s <:+ t → Allowed s
  literal    : ∀ t ps rest, Allowed t → pieces t = some (ps, rest) → Kind (joinPieces ps)

variable {Allowed : Text → Prop}

theorem gives_string (carries : Carries Allowed Kind) (allowed : Allowed t) : Gives Kind room t (string t) := by
  refine gives_of_unreadable (fun name rest eq => ?_) (string_failsOnly t)
  simp only [string, Result.bind_eq_ok_iff, Result.ofOption_eq_ok_iff, Result.pure_eq_ok_iff] at eq
  obtain ⟨read, found, eq⟩ := eq
  cases eq
  exact ⟨carries.literal t _ _ allowed found, (pieces_spec found).left⟩

theorem skipBlanks_suffix (t : Text) : skipBlanks t <:+ t :=
  List.dropWhile_suffix _

theorem suffix_of_skipBlanks {d : CodePoint} {rest : Text} (h : skipBlanks t = d :: rest) : d :: rest <:+ t :=
  h ▸ skipBlanks_suffix t

theorem fits_list {vs : List Value} (each : ∀ v ∈ vs, Fits Kind room v) : Fits Kind (room + 1) (.list vs) where
  json := .list fun v mem => (each v mem).json
  shallow := Value.depth_list_le_iff.mpr fun v mem => (each v mem).shallow

theorem fits_ofEntries {members : List (Text × Value)}
    (each : ∀ member ∈ members, Kind member.1 ∧ Fits Kind room member.2) :
    Fits Kind (room + 1) (.object (Table.ofEntries members)) := by
  have kept (member) (mem : member ∈ Table.ofEntries members) : Kind member.1 ∧ Fits Kind room member.2 :=
    each member (Table.mem_ofEntries mem)
  exact {
    json := .object (Table.distinct_ofEntries members) (fun member mem => (kept member mem).left)
      fun member mem => (kept member mem).right.json
    shallow := Value.depth_object_le_iff.mpr fun member mem => (kept member mem).right.shallow }

-- The readers of values, elements and members call each other with less fuel.
structure ReadersGive (Allowed Kind : Text → Prop) (fuel : Nat) : Prop where
  value   : ∀ room t, Allowed t → Gives (Fits Kind room) room t (value room fuel t)
  items   : ∀ room t, Allowed t → Gives (∀ v ∈ ·, Fits Kind room v) room t (items room fuel t)
  members : ∀ room t, Allowed t →
    Gives (∀ member ∈ ·, Kind member.1 ∧ Fits Kind room member.2) room t (members room fuel t)

section

variable {fuel : Nat} (carries : Carries Allowed Kind) (less : ReadersGive Allowed Kind fuel) (allowed : Allowed t)
include carries less allowed

theorem gives_value : Gives (Fits Kind room) room t (value room (fuel + 1) t) := by
  cases t
  case nil => exact gives_malformed
  case cons c cs =>
    have behind := List.suffix_cons c cs
    have within {rest : Text} (inside : rest <:+ cs) : Allowed rest :=
      carries.hereditary _ _ allowed (inside.trans behind)
    rw [value.eq_def]
    dsimp only
    split
    · have text : Gives Kind room cs (string cs) := gives_string carries (within (List.suffix_refl cs))
      refine (text.bind fun s rest kind _ => ?_).of_suffix behind
      exact gives_ok ⟨.text kind, Nat.zero_le _⟩ (List.suffix_refl _)
    split
    case isTrue opens =>
      cases room
      case zero => exact gives_error (refuses_bracket (.inl opens) cs)
      case succ room =>
        dsimp only
        split
        · exact gives_malformed
        next d rest eq =>
        have inside := suffix_of_skipBlanks eq
        split
        · exact gives_ok (fits_list (List.forall_mem_nil _))
            (((List.suffix_cons d rest).trans inside).trans behind)
        · have elements := ((less.items room _ (within inside)).of_suffix inside).enter (.inl opens)
          exact elements.bind fun vs rest each _ => gives_ok (fits_list each) (List.suffix_refl _)
    split
    case isTrue opens =>
      cases room
      case zero => exact gives_error (refuses_bracket (.inr opens) cs)
      case succ room =>
        dsimp only
        split
        · exact gives_malformed
        next d rest eq =>
        have inside := suffix_of_skipBlanks eq
        split
        · have empty : Fits Kind (room + 1) (.object (Table.ofEntries [])) :=
            fits_ofEntries (List.forall_mem_nil _)
          exact gives_ok empty
            (((List.suffix_cons d rest).trans inside).trans behind)
        · have entries := ((less.members room _ (within inside)).of_suffix inside).enter (.inr opens)
          exact entries.bind fun ms rest each _ => gives_ok (fits_ofEntries each) (List.suffix_refl _)
    · exact gives_scalar _

theorem gives_items : Gives (∀ v ∈ ·, Fits Kind room v) room t (items room (fuel + 1) t) := by
  rw [items]
  refine (less.value room t allowed).bind fun v rest fits suffix => ?_
  dsimp only
  split
  · exact gives_malformed
  next c left eq =>
  have behind := (List.suffix_cons c left).trans (suffix_of_skipBlanks eq)
  split
  · exact gives_ok (List.forall_mem_singleton.mpr fits) behind
  split
  · have behind := (skipBlanks_suffix left).trans behind
    have elements := less.items room _ (carries.hereditary _ _ allowed (behind.trans suffix))
    refine (elements.bind fun vs rest each _ => ?_).of_suffix behind
    exact gives_ok (List.forall_mem_cons.mpr ⟨fits, each⟩) (List.suffix_refl _)
  · exact gives_malformed

theorem gives_members :
    Gives (∀ member ∈ ·, Kind member.1 ∧ Fits Kind room member.2) room t (members room (fuel + 1) t) := by
  cases t
  case nil => exact gives_malformed
  case cons c cs =>
    have behind := List.suffix_cons c cs
    have allowed := carries.hereditary _ _ allowed behind
    rw [members]
    split
    case isFalse => exact gives_malformed
    case isTrue =>
      refine ((gives_string carries allowed).bind fun name rest kind suffix => ?_).of_suffix behind
      dsimp only
      split
      · exact gives_malformed
      next d left eq =>
      have behind := (skipBlanks_suffix left).trans ((List.suffix_cons d left).trans (suffix_of_skipBlanks eq))
      have allowed := carries.hereditary _ _ allowed (behind.trans suffix)
      split
      case isFalse => exact gives_malformed
      case isTrue =>
        refine ((less.value room _ allowed).bind fun v rest fits suffix => ?_).of_suffix behind
        dsimp only
        split
        · exact gives_malformed
        next e left eq =>
        have behind := (List.suffix_cons e left).trans (suffix_of_skipBlanks eq)
        split
        · exact gives_ok (List.forall_mem_singleton.mpr ⟨kind, fits⟩) behind
        split
        · have behind := (skipBlanks_suffix left).trans behind
          have entries := less.members room _ (carries.hereditary _ _ allowed (behind.trans suffix))
          refine (entries.bind fun ms rest each _ => ?_).of_suffix behind
          exact gives_ok (List.forall_mem_cons.mpr ⟨⟨kind, fits⟩, each⟩) (List.suffix_refl _)
        · exact gives_malformed

end

theorem readersGive (carries : Carries Allowed Kind) (fuel : Nat) : ReadersGive Allowed Kind fuel := by
  induction fuel
  case zero => exact ⟨fun _ _ _ => gives_malformed, fun _ _ _ => gives_malformed, fun _ _ _ => gives_malformed⟩
  case succ fuel hi =>
    exact ⟨fun _ _ => gives_value carries hi, fun _ _ => gives_items carries hi, fun _ _ => gives_members carries hi⟩

theorem gives_parsed (carries : Carries Allowed Kind) (allowed : Allowed t) (fuel : Nat) :
    Gives (Fits Kind maxDepth) maxDepth t (value maxDepth fuel (skipBlanks t)) := by
  have inside := skipBlanks_suffix t
  exact ((readersGive carries fuel).value maxDepth _ (carries.hereditary _ _ allowed inside)).of_suffix inside

theorem fits_of_carries (carries : Carries Allowed Kind) (allowed : Allowed t) {v : Value} (h : parse t = .ok v) :
    Fits Kind maxDepth v := by
  simp only [parse, Result.bind_eq_ok_iff] at h
  obtain ⟨⟨w, rest⟩, found, eq⟩ := h
  have given := ((gives_parsed carries allowed _).ok w rest found).left
  split at eq
  case isFalse => cases eq
  case isTrue =>
    cases eq
    exact given

theorem carries_true : Carries (fun _ => True) fun _ => True where
  hereditary _ _ _ _ := trivial
  literal _ _ _ _ _ := trivial

theorem carries_isJoined : Carries (·.isScalar = true) Text.IsJoined where
  hereditary _ _ scalar suffix :=
    List.all_eq_true.mpr fun c mem => List.all_eq_true.mp scalar c (suffix.subset mem)
  literal _ _ _ scalar found := isJoined_joinPieces ((pieces_spec found).right scalar)

theorem isJson_of_parse {v : Value} (h : parse t = .ok v) : v.IsJson fun _ => True :=
  (fits_of_carries carries_true trivial h).json

-- From text without surrogates come documents that nothing is lost of when they are written.
theorem isJoined_of_parse {v : Value} (scalar : t.isScalar = true) (h : parse t = .ok v) :
    v.IsJson Text.IsJoined :=
  (fits_of_carries carries_isJoined scalar h).json

theorem depth_le_of_parse {v : Value} (h : parse t = .ok v) : v.depth ≤ maxDepth :=
  (fits_of_carries carries_true trivial h).shallow

-- Text that is not of the right form is refused, and text in which too many brackets are open at a time.
theorem parse_failsOnly (t : Text) : FailsOnly (Refuses maxDepth t) (parse t) := by
  intro fault failed
  rw [parse] at failed
  cases read : value maxDepth (2 * t.length + 2) (skipBlanks t)
  case error other =>
    rw [read] at failed
    cases failed
    exact (gives_parsed carries_true trivial _).error fault read
  case ok found =>
    rw [read] at failed
    change (if _ then _ else _) = _ at failed
    split at failed
    case isTrue => cases failed
    case isFalse =>
      cases failed
      exact .inl malformed

end SecretSync.Json
