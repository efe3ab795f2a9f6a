import SecretSync.Text.Units
import SecretSync.Text.Utf8

/-!
Byte strings that hold JSON. The encoding form is told from a byte order mark or, without one, from
where the zero bytes stand in the first code units, as JSON text begins with an ASCII character.
Surrogates that stand alone are kept.
-/

namespace SecretSync

inductive ByteOrder where
  | bigEndian
  | littleEndian
deriving DecidableEq, Repr

inductive Encoding where
  | utf8
  | utf16 (order : ByteOrder)
  | utf32 (order : ByteOrder)
deriving DecidableEq, Repr

namespace Encoding

-- The encoding form of a JSON text and the length of its byte order mark.
def detect (bytes : Bytes) : Encoding × Nat :=
  match bytes with
  | 0x00 :: 0x00 :: 0xFE :: 0xFF :: _ => (.utf32 .bigEndian, 4)
  | 0xFF :: 0xFE :: 0x00 :: 0x00 :: _ => (.utf32 .littleEndian, 4)
  | 0xFE :: 0xFF :: _ => (.utf16 .bigEndian, 2)
  | 0xFF :: 0xFE :: _ => (.utf16 .littleEndian, 2)
  | 0xEF :: 0xBB :: 0xBF :: _ => (.utf8, 3)
  | a :: b :: c :: d :: _ =>
    if a = 0 then (if b = 0 then .utf32 .bigEndian else .utf16 .bigEndian, 0)
    else if b = 0 then (if c = 0 && d = 0 then .utf32 .littleEndian else .utf16 .littleEndian, 0)
    else (.utf8, 0)
  | [a, b] =>
    if a = 0 then (.utf16 .bigEndian, 0)
    else if b = 0 then (.utf16 .littleEndian, 0)
    else (.utf8, 0)
  | _ => (.utf8, 0)

def units16 (order : ByteOrder) : Bytes → Option (List Nat)
  | [] => some []
  | [_] => none
  | a :: b :: rest =>
    let unit := match order with
      | .bigEndian => a.toNat * 0x100 + b.toNat
      | .littleEndian => b.toNat * 0x100 + a.toNat
    (units16 order rest).map (unit :: ·)

-- The code points of 16 bit code units: a high surrogate and the low one that follows it make one
-- code point.
def ofUnits16 : List Nat → Text
  | high :: low :: rest =>
    if CodePoint.isPair high low then CodePoint.ofPair high low :: ofUnits16 rest
    else CodePoint.ofNat high :: ofUnits16 (low :: rest)
  | [unit] => [CodePoint.ofNat unit]
  | [] => []

def ofUnits32 (order : ByteOrder) : Bytes → Option Text
  | [] => some []
  | a :: b :: c :: d :: rest =>
    let n := match order with
      | .bigEndian => ((a.toNat * 0x100 + b.toNat) * 0x100 + c.toNat) * 0x100 + d.toNat
      | .littleEndian => ((d.toNat * 0x100 + c.toNat) * 0x100 + b.toNat) * 0x100 + a.toNat
    if n < 0x110000 then (ofUnits32 order rest).map (CodePoint.ofNat n :: ·) else none
  | _ => none

def decode? (encoding : Encoding) (bytes : Bytes) : Option Text :=
  match encoding with
  | .utf8 => Text.ofUtf8With true bytes
  | .utf16 order => (units16 order bytes).map ofUnits16
  | .utf32 order => ofUnits32 order bytes

end Encoding

def Text.ofJsonBytes? (bytes : Bytes) : Option Text :=
  let (encoding, mark) := Encoding.detect bytes
  encoding.decode? (bytes.drop mark)

end SecretSync
