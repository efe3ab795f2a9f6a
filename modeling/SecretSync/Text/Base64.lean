import SecretSync.Text.Basic

/-!
Base64 with padding. Three bytes make four signs of six bits each; one or two bytes at the end are
filled up with zero bits and marked by padding signs. Main statement: `decode?_encode`.
-/

namespace SecretSync.Base64

-- The sign of a number below 64.
def sign (n : Nat) : CodePoint :=
  if n < 26 then CodePoint.ofNat (0x41 + n)
  else if n < 52 then CodePoint.ofNat (0x61 + (n - 26))
  else if n < 62 then CodePoint.ofNat (0x30 + (n - 52))
  else if n = 62 then '+'
  else '/'

def number? (c : CodePoint) : Option Nat :=
  let n := c.val
  if 0x41 ≤ n && n ≤ 0x5A then some (n - 0x41)
  else if 0x61 ≤ n && n ≤ 0x7A then some (n - 0x61 + 26)
  else if 0x30 ≤ n && n ≤ 0x39 then some (n - 0x30 + 52)
  else if c = '+' then some 62
  else if c = '/' then some 63
  else none

def padding : CodePoint := '='

def encode : Bytes → Text
  | [] => []
  | [a] => [sign (a.toNat / 4), sign (a.toNat % 4 * 16), padding, padding]
  | [a, b] =>
    [sign (a.toNat / 4), sign (a.toNat % 4 * 16 + b.toNat / 16), sign (b.toNat % 16 * 4), padding]
  | a :: b :: c :: rest =>
    sign (a.toNat / 4) :: sign (a.toNat % 4 * 16 + b.toNat / 16)
      :: sign (b.toNat % 16 * 4 + c.toNat / 64) :: sign (c.toNat % 64) :: encode rest

def decode? : Text → Option Bytes
  | [] => some []
  | w :: x :: y :: z :: rest => do
    let p ← number? w
    let q ← number? x
    let first := (p * 4 + q / 16).toUInt8
    if y = padding then
      if z = padding && rest.isEmpty then pure [first] else none
    else
      let r ← number? y
      let second := (q % 16 * 16 + r / 4).toUInt8
      if z = padding then
        if rest.isEmpty then pure [first, second] else none
      else
        let s ← number? z
        let tail ← decode? rest
        pure (first :: second :: (r % 4 * 64 + s).toUInt8 :: tail)
  | _ => none

theorem number?_sign : ∀ n < 64, number? (sign n) = some n ∧ sign n ≠ padding := by
  decide

theorem number?_sign_of_lt {n : Nat} (h : n < 64) : number? (sign n) = some n :=
  (number?_sign n h).1

theorem sign_ne_padding {n : Nat} (h : n < 64) : sign n ≠ padding :=
  (number?_sign n h).2

theorem toUInt8_eq {a : UInt8} {n : Nat} (h : n = a.toNat) : n.toUInt8 = a := by
  subst h
  simp

theorem decode?_encode (bytes : Bytes) : decode? (encode bytes) = some bytes := by
  fun_induction encode bytes with
  | case1 => rfl
  | case2 a =>
    have := a.toNat_lt
    have ha : (a.toNat / 4 * 4 + a.toNat % 4 * 16 / 16).toUInt8 = a := toUInt8_eq (by omega)
    rw [decode?, number?_sign_of_lt (by omega), number?_sign_of_lt (by omega)]
    simp only [Option.bind_eq_bind, Option.bind_some, if_true, ha]
    rfl
  | case3 a b =>
    have := a.toNat_lt
    have := b.toNat_lt
    have ha : (a.toNat / 4 * 4 + (a.toNat % 4 * 16 + b.toNat / 16) / 16).toUInt8 = a :=
      toUInt8_eq (by omega)
    have hb : ((a.toNat % 4 * 16 + b.toNat / 16) % 16 * 16 + b.toNat % 16 * 4 / 4).toUInt8 = b :=
      toUInt8_eq (by omega)
    rw [decode?, number?_sign_of_lt (by omega), number?_sign_of_lt (by omega)]
    simp only [Option.bind_eq_bind, Option.bind_some]
    rw [if_neg (sign_ne_padding (by omega)), number?_sign_of_lt (by omega)]
    simp only [Option.bind_some, if_true, ha, hb]
    rfl
  | case4 a b c rest ih =>
    have := a.toNat_lt
    have := b.toNat_lt
    have := c.toNat_lt
    have ha : (a.toNat / 4 * 4 + (a.toNat % 4 * 16 + b.toNat / 16) / 16).toUInt8 = a :=
      toUInt8_eq (by omega)
    have hb : ((a.toNat % 4 * 16 + b.toNat / 16) % 16 * 16
        + (b.toNat % 16 * 4 + c.toNat / 64) / 4).toUInt8 = b := toUInt8_eq (by omega)
    have hc : ((b.toNat % 16 * 4 + c.toNat / 64) % 4 * 64 + c.toNat % 64).toUInt8 = c :=
      toUInt8_eq (by omega)
    rw [decode?, number?_sign_of_lt (by omega), number?_sign_of_lt (by omega)]
    simp only [Option.bind_eq_bind, Option.bind_some]
    rw [if_neg (sign_ne_padding (by omega)), number?_sign_of_lt (by omega)]
    simp only [Option.bind_some]
    rw [if_neg (sign_ne_padding (by omega)), number?_sign_of_lt (by omega)]
    simp only [Option.bind_some, ih, ha, hb, hc]
    rfl

end SecretSync.Base64
