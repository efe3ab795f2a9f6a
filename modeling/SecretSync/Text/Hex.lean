import SecretSync.Text.Basic

/-!
Bytes in hexadecimal, two digits each. Spaces may stand between the bytes, and digits may be capital or
small; small ones are written, without spaces. Main statement: `decode?_encode`.
-/

namespace SecretSync.Hex

-- White space of ASCII: space, and the controls from tab to carriage return.
def isSpace (c : CodePoint) : Bool := c.val == 0x20 || (0x09 ≤ c.val && c.val ≤ 0x0D)

def encode (bytes : Bytes) : Text := bytes.flatMap fun byte => Text.hex 2 byte.toNat

def decode? : Text → Option Bytes
  | [] => some []
  | [a] => if isSpace a then some [] else none
  | a :: b :: rest =>
    if isSpace a then decode? (b :: rest)
    else do
      let high ← a.hexDigit?
      let low ← b.hexDigit?
      pure ((high * 16 + low).toUInt8 :: (← decode? rest))

theorem hexDigit?_digit : ∀ d < 16,
    isSpace (CodePoint.ofNat (if d < 10 then 0x30 + d else 0x57 + d)) = false ∧
      (CodePoint.ofNat (if d < 10 then 0x30 + d else 0x57 + d)).hexDigit? = some d := by
  decide

theorem decode?_encode (bytes : Bytes) : decode? (encode bytes) = some bytes := by
  induction bytes with
  | nil => rfl
  | cons byte bytes ih =>
    have := byte.toNat_lt
    obtain ⟨space, high⟩ := hexDigit?_digit (byte.toNat / 16 % 16) (by omega)
    obtain ⟨_, low⟩ := hexDigit?_digit (byte.toNat % 16) (by omega)
    have whole : (byte.toNat / 16 % 16 * 16 + byte.toNat % 16).toUInt8 = byte := by
      rw [show byte.toNat / 16 % 16 * 16 + byte.toNat % 16 = byte.toNat by omega]
      simp
    simp only [encode, List.flatMap_cons, Text.hex, List.nil_append, List.cons_append] at ih ⊢
    simp only [decode?, space, Bool.false_eq_true, if_false, high, low, ih, Option.bind_eq_bind,
      Option.bind_some, whole]
    rfl

end SecretSync.Hex
