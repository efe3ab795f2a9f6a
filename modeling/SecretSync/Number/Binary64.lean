import SecretSync.Number.Power

/-!
Floats as binary fractions. A finite float is `± m · 2 ^ e` with `m < 2 ^ 53`; a ratio of numbers is
rounded to the nearest such value, a tie to the one with an even `m`.
-/

namespace SecretSync

inductive Binary64 where
  | nan
  | infinite (negative : Bool)
  -- `± mantissa · 2 ^ exponent`
  | finite (negative : Bool) (mantissa : Nat) (exponent : Int)
deriving DecidableEq, Repr

namespace Binary64

def leastExponent : Int := -1074

def ofFloat (x : Float) : Binary64 :=
  let bits := x.toBits.toNat
  let negative := decide (twoPow 63 ≤ bits)
  let exponent : Nat := bits / twoPow 52 % twoPow 11
  let fraction : Nat := bits % twoPow 52
  if exponent = 2047 then
    if fraction = 0 then .infinite negative else .nan
  else if exponent = 0 then .finite negative fraction leastExponent
  else .finite negative (twoPow 52 + fraction) (exponent - 1075)

-- `num / den`, rounded to a whole number, a tie to the even one.
def roundHalfEven (num den : Nat) : Nat :=
  let quotient := num / den
  let rest := num % den
  if 2 * rest < den then quotient
  else if 2 * rest = den && quotient % 2 = 0 then quotient
  else quotient + 1

def infiniteBits : Nat := 2047 * twoPow 52

-- The bits of the float nearest to `num / den`, without the sign. A value too large for a float
-- gives the bits of infinity.
def bitsOfRatio (num den : Nat) : Nat :=
  if num = 0 then 0
  else
    -- the quotient at `guess` has 53 or 54 bits, or fewer at the least exponent
    let guess := max leastExponent ((num.log2 : Int) - den.log2 - 53)
    let scaled (e : Int) : Nat × Nat := (num * twoPow (-e).toNat, den * twoPow e.toNat)
    let exponent := if (scaled guess).1 / (scaled guess).2 < twoPow 53 then guess else guess + 1
    let mantissa := roundHalfEven (scaled exponent).1 (scaled exponent).2
    -- a mantissa of 53 bits that is rounded up to 54 carries into the exponent field
    min ((exponent - leastExponent).toNat * twoPow 52 + mantissa) infiniteBits

def floatOfRatio (negative : Bool) (num den : Nat) : Float :=
  Float.ofBits (UInt64.ofNat (bitsOfRatio num den + if negative then twoPow 63 else 0))

-- The float nearest to `± digits · 10 ^ exponent`. Far outside the range of floats the result is
-- infinite or zero without a look at the digits.
def floatOfDecimal (negative : Bool) (digits : Nat) (exponent : Int) : Float :=
  let size := (digits.log2 : Int) * 3 / 10 + exponent
  if digits = 0 then floatOfRatio negative 0 1
  else if 400 < size then floatOfRatio negative (twoPow 1024) 1
  else if size < -400 then floatOfRatio negative 0 1
  else floatOfRatio negative (digits * tenPow exponent.toNat) (tenPow (-exponent).toNat)

def floatOfInt? (n : Int) : Option Float :=
  if bitsOfRatio n.natAbs 1 < infiniteBits then some (floatOfRatio (n < 0) n.natAbs 1) else none

-- The whole part of a finite value, toward zero.
def truncate? : Binary64 → Option Int
  | .finite negative mantissa exponent =>
    let magnitude := mantissa * twoPow exponent.toNat / twoPow (-exponent).toNat
    some (if negative then -magnitude else magnitude)
  | _ => none

def whole? : Binary64 → Option Int
  | .finite negative mantissa exponent =>
    if mantissa % twoPow (-exponent).toNat = 0 then truncate? (.finite negative mantissa exponent)
    else none
  | _ => none

end Binary64

end SecretSync
