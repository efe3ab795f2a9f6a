import SecretSync.Text.Basic

/-!
Code units of 16 bits. A code point above 0xFFFF takes two of them, a high surrogate and a low one;
any other code point is its own unit.
-/

namespace SecretSync.CodePoint

def units (c : CodePoint) : List Nat :=
  if c.val < 0x10000 then [c.val]
  else [0xD800 + (c.val - 0x10000) / 0x400, 0xDC00 + (c.val - 0x10000) % 0x400]

def isPair (high low : Nat) : Bool :=
  0xD800 ≤ high && high ≤ 0xDBFF && 0xDC00 ≤ low && low ≤ 0xDFFF

def ofPair (high low : Nat) : CodePoint :=
  ofNat (0x10000 + (high - 0xD800) * 0x400 + (low - 0xDC00))

end SecretSync.CodePoint
