import SecretSync.Proofs.Json.RoundTrip

/-!
JSON text is ASCII, so that it has a UTF-8 form. Main statement: `isAscii_render`.
-/

namespace SecretSync

def Text.IsAscii (t : Text) : Prop :=
  ∀ c ∈ t, c.isAscii = true

instance (t : Text) : Decidable t.IsAscii :=
  List.decidableBAll (CodePoint.isAscii · = true) t

namespace Text.IsAscii

variable {s t : Text}

theorem append (hs : s.IsAscii) (ht : t.IsAscii) : (s ++ t).IsAscii :=
  List.forall_mem_append.mpr ⟨hs, ht⟩

theorem cons {c : CodePoint} (h : c.isAscii = true) (ht : t.IsAscii) : IsAscii (c :: t) :=
  List.forall_mem_cons.mpr ⟨h, ht⟩

theorem flatMap {α : Type} {items : List α} {f : α → Text} (h : ∀ item ∈ items, (f item).IsAscii) :
    IsAscii (items.flatMap f) := by
  intro c mem
  have ⟨item, given, mem⟩ := List.mem_flatMap.mp mem
  exact h item given c mem

theorem isScalar (h : t.IsAscii) : t.isScalar = true := by
  refine List.all_eq_true.mpr fun c mem => ?_
  have small := h c mem
  simp only [CodePoint.isAscii, CodePoint.isSurrogate, decide_eq_true_eq] at small ⊢
  simp
  omega

theorem take (h : t.IsAscii) (n : Nat) : IsAscii (t.take n) :=
  fun c mem => h c (List.mem_of_mem_take mem)

theorem drop (h : t.IsAscii) (n : Nat) : IsAscii (t.drop n) :=
  fun c mem => h c (List.mem_of_mem_drop mem)

theorem zeros (n : Nat) : IsAscii (List.replicate n '0') := by
  intro c mem
  rw [List.eq_of_mem_replicate mem]
  rfl

theorem ofNat (n : Nat) : (Text.ofNat n).IsAscii := by
  have ⟨ds, _, digits, written, _⟩ := Text.digitsWithin_eq (n + 1) n (Nat.lt_succ_self n)
  intro c mem
  rw [Text.ofNat, written] at mem
  obtain ⟨d, given, eq⟩ := List.mem_map.mp mem
  exact eq ▸ (CodePoint.isDigit_ofDigit (digits d given)).ascii

theorem ofInt (n : Int) : (Text.ofInt n).IsAscii := by
  cases n
  case ofNat n => exact ofNat n
  case negSucc n => exact cons rfl (ofNat (n + 1))

theorem hex (width n : Nat) : (Text.hex width n).IsAscii := by
  have digit : ∀ d < 16, (CodePoint.ofNat (if d < 10 then 0x30 + d else 0x57 + d)).isAscii = true := by decide
  induction width generalizing n
  case zero => exact List.forall_mem_nil _
  case succ width hi =>
    rw [Text.hex]
    exact append (hi _) (cons (digit _ (Nat.mod_lt _ (by decide))) (List.forall_mem_nil _))

end Text.IsAscii

open Text (IsAscii)

theorem NumberLayout.isAscii_decimal (layout : NumberLayout) (d : Decimal) : IsAscii (layout.decimal d) := by
  have digits := IsAscii.ofNat d.digits
  rw [decimal]
  dsimp only
  split
  · split
    · exact .append (.append (.append (.zeros 1) (by decide)) (.zeros _)) digits
    split
    · exact .append (.append (.append digits (.zeros _)) (by decide)) (.zeros 1)
    · exact .append (.append (digits.take _) (by decide)) (digits.drop _)
  · refine .append (.append (.append (digits.take _) ?fraction) ?sign) (.append (.zeros _) (.ofNat _))
    case fraction =>
      split
      · exact List.forall_mem_nil _
      · exact .append (by decide) (digits.drop _)
    case sign =>
      split
      all_goals decide

namespace Json

theorem isAscii_float (x : Float) : IsAscii (numberLayout.float x) := by
  have signed (negative : Bool) {t : Text} (h : IsAscii t) : IsAscii (signed negative t) := by
    cases negative
    case false => exact h
    case true => exact .cons rfl h
  rw [NumberLayout.float]
  split
  · decide
  · exact signed _ (by decide)
  · split
    · exact signed _ (by decide)
    · exact signed _ (numberLayout.isAscii_decimal _)

theorem isAscii_escape (c : CodePoint) : IsAscii (escape c) := by
  rw [escape]
  split
  case isTrue same =>
    simp only [Bool.or_eq_true, decide_eq_true_eq] at same
    rcases same with eq | eq
    all_goals
      subst eq
      decide
  split
  · decide
  split
  · decide
  split
  · decide
  split
  · decide
  split
  · decide
  split
  case isTrue printable =>
    simp only [Bool.and_eq_true, decide_eq_true_eq] at printable
    refine .cons ?_ (List.forall_mem_nil _)
    simp only [CodePoint.isAscii, decide_eq_true_eq]
    omega
  case isFalse => exact .flatMap fun n _ => .cons rfl (.cons rfl (.hex 4 n))

theorem isAscii_literal (t : Text) : IsAscii (literal t) :=
  .cons rfl (.append (.flatMap fun c _ => isAscii_escape c) (.cons rfl (List.forall_mem_nil _)))

theorem isAscii_renderItems {vs : List Value} (each : ∀ v ∈ vs, IsAscii (render v)) :
    IsAscii (renderItems vs) := by
  induction vs
  case nil => exact List.forall_mem_nil _
  case cons v vs hi =>
    have ⟨first, others⟩ := List.forall_mem_cons.mp each
    cases vs
    case nil => exact first
    case cons w vs => exact .append (.append first (by decide)) (hi others)

theorem isAscii_renderMembers {ms : List (Text × Value)} (each : ∀ member ∈ ms, IsAscii (render member.2)) :
    IsAscii (renderMembers ms) := by
  induction ms
  case nil => exact List.forall_mem_nil _
  case cons member ms hi =>
    have ⟨first, others⟩ := List.forall_mem_cons.mp each
    obtain ⟨name, v⟩ := member
    have start : IsAscii (literal name ++ Text.ofString ": " ++ render v) :=
      .append (.append (isAscii_literal name) (by decide)) first
    cases ms
    case nil => exact start
    case cons member ms =>
      rw [renderMembers_cons_cons]
      exact .append (.append start (by decide)) (hi others)

theorem isAscii_render {v : Value} {Kind : Text → Prop} (json : v.IsJson Kind) : IsAscii (render v) := by
  induction json
  case null => decide
  case bool b =>
    cases b
    all_goals decide
  case int n _ => exact .ofInt n
  case float x => exact isAscii_float x
  case text t _ => exact isAscii_literal t
  case list each => exact .cons rfl (.append (isAscii_renderItems each) (.cons rfl (List.forall_mem_nil _)))
  case object each => exact .cons rfl (.append (isAscii_renderMembers each) (.cons rfl (List.forall_mem_nil _)))

end Json

end SecretSync
