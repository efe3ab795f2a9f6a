import SecretSync.Text.Basic

/-!
The UTF-8 form of texts. Strict: a surrogate has no UTF-8 form, and of a byte string only the
shortest form of each character is accepted. The tolerant reader, which JSON bytes use, also accepts
the three byte form of a surrogate.
-/

namespace SecretSync

namespace CodePoint

-- The UTF-8 bytes of a code point, surrogates taken like any other three byte code point.
def utf8 (c : CodePoint) : Bytes :=
  let n := c.val
  if n < 0x80 then [n.toUInt8]
  else if n < 0x800 then [(0xC0 + n / 0x40).toUInt8, (0x80 + n % 0x40).toUInt8]
  else if n < 0x10000 then
    [(0xE0 + n / 0x1000).toUInt8, (0x80 + n / 0x40 % 0x40).toUInt8, (0x80 + n % 0x40).toUInt8]
  else
    [(0xF0 + n / 0x40000).toUInt8, (0x80 + n / 0x1000 % 0x40).toUInt8,
      (0x80 + n / 0x40 % 0x40).toUInt8, (0x80 + n % 0x40).toUInt8]

end CodePoint

namespace Text

def utf8? (t : Text) : Option Bytes :=
  if t.isScalar then some (t.flatMap CodePoint.utf8) else none

def continuation? (b : UInt8) : Option Nat :=
  if 0x80 ≤ b && b ≤ 0xBF then some (b.toNat - 0x80) else none

-- `ofUtf8 surrogates bytes` reads UTF-8. A lead byte fixes the length; the bounds on the number
-- read rule out longer forms than needed and, unless `surrogates` is set, surrogates.
def ofUtf8With (surrogates : Bool) : Bytes → Option Text
  | [] => some []
  | a :: rest =>
    if a < 0x80 then (ofUtf8With surrogates rest).map (CodePoint.ofNat a.toNat :: ·)
    else if 0xC2 ≤ a && a ≤ 0xDF then
      match rest with
      | b :: rest => do
        let x ← continuation? b
        let tail ← ofUtf8With surrogates rest
        pure (CodePoint.ofNat ((a.toNat - 0xC0) * 0x40 + x) :: tail)
      | _ => none
    else if 0xE0 ≤ a && a ≤ 0xEF then
      match rest with
      | b :: c :: rest => do
        let x ← continuation? b
        let y ← continuation? c
        let n := (a.toNat - 0xE0) * 0x1000 + x * 0x40 + y
        if n < 0x800 || (!surrogates && 0xD800 ≤ n && n ≤ 0xDFFF) then none
        else
          let tail ← ofUtf8With surrogates rest
          pure (CodePoint.ofNat n :: tail)
      | _ => none
    else if 0xF0 ≤ a && a ≤ 0xF4 then
      match rest with
      | b :: c :: d :: rest => do
        let x ← continuation? b
        let y ← continuation? c
        let z ← continuation? d
        let n := (a.toNat - 0xF0) * 0x40000 + x * 0x1000 + y * 0x40 + z
        if n < 0x10000 || 0x110000 ≤ n then none
        else
          let tail ← ofUtf8With surrogates rest
          pure (CodePoint.ofNat n :: tail)
      | _ => none
    else none

def ofUtf8? (bytes : Bytes) : Option Text := ofUtf8With false bytes

end Text

end SecretSync
