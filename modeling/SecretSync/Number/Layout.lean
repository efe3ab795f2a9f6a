import SecretSync.Number.Shortest
import SecretSync.Text.Basic

/-!
How a float is written: which decimals are written out and which get an exponent, and the words for
the values that are no numbers.
-/

namespace SecretSync

structure NumberLayout where
  -- The least power of ten of the first digit that is written without an exponent.
  leastPositional : Int
  -- The greatest power of ten of the first digit that is written without an exponent.
  greatestPositional : Int
  -- The least number of digits of an exponent.
  exponentWidth : Nat
  nan : Text
  infinity : Text

namespace NumberLayout

private def zeros (n : Nat) : Text := List.replicate n ('0' : CodePoint)

private def point : Text := ['.']

-- A positive decimal. Without an exponent there is at least one digit on either side of the point.
def decimal (layout : NumberLayout) (d : Decimal) : Text :=
  let digits := Text.ofNat d.digits
  let power := d.exponent + digits.length - 1
  if layout.leastPositional ≤ power && power ≤ layout.greatestPositional then
    if power < 0 then zeros 1 ++ point ++ zeros (-power - 1).toNat ++ digits
    else
      let before := power.toNat + 1
      if digits.length ≤ before then digits ++ zeros (before - digits.length) ++ point ++ zeros 1
      else digits.take before ++ point ++ digits.drop before
  else
    let fraction := digits.drop 1
    digits.take 1 ++ (if fraction.isEmpty then [] else point ++ fraction)
      ++ [('e' : CodePoint), if power < 0 then '-' else '+']
      ++ Text.padded layout.exponentWidth power.natAbs

-- A float in as few digits as read back to it. Zero keeps its sign.
def float (layout : NumberLayout) (x : Float) : Text :=
  let signed (negative : Bool) (t : Text) : Text := if negative then ('-' : CodePoint) :: t else t
  match Binary64.ofFloat x with
  | .nan => layout.nan
  | .infinite negative => signed negative layout.infinity
  | .finite negative mantissa exponent =>
    if mantissa = 0 then signed negative (zeros 1 ++ point ++ zeros 1)
    else signed negative (layout.decimal (Decimal.shortest mantissa exponent))

end NumberLayout

end SecretSync
