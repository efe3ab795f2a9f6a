import SecretSync.Number.Binary64

/-!
The shortest decimal that reads back as a given float. The reals that round to `m · 2 ^ e` form an
interval, its ends included iff `m` is even. For one digit, two digits and so on the two neighbours
of the value on the grid of such decimals are tried: the first grid with a neighbour inside the
interval fixes the number of digits, of two neighbours inside the nearer one is taken, of two equally
near ones the even one.
-/

namespace SecretSync

structure Decimal where
  digits : Nat
  exponent : Int
deriving DecidableEq, Repr

namespace Decimal

-- The same decimal without zeros at the end of its digits; `fuel` bounds their number.
def dropZeros : Nat → Decimal → Decimal
  | 0, d => d
  | fuel + 1, d =>
    if d.digits ≠ 0 && d.digits % 10 = 0 then dropZeros fuel ⟨d.digits / 10, d.exponent + 1⟩ else d

-- The number of decimal digits of `n`, at least one; `fuel` bounds it.
def digitCount : Nat → Nat → Nat
  | 0, _ => 1
  | fuel + 1, n => if n < 10 then 1 else digitCount fuel (n / 10) + 1

-- The least `j` with `den ≤ num · 10 ^ j`, counted from `j`; `fuel` bounds the search.
def leadingZeros (num den : Nat) : Nat → Nat → Nat
  | 0, j => j
  | fuel + 1, j => if den ≤ num then j else leadingZeros (num * 10) den fuel (j + 1)

-- The number of digits before the point of `num / den`, counted below zero when zeros follow the
-- point: the `k` with `10 ^ (k - 1) ≤ num / den < 10 ^ k`.
def pointPosition (num den : Nat) : Int :=
  if den ≤ num then digitCount 400 (num / den) else 1 - leadingZeros num den 400 0

-- The interval around a positive float, all three numbers over the denominator `den`.
structure Interval where
  low : Nat
  value : Nat
  high : Nat
  den : Nat
  closed : Bool

-- The reals that round to `mantissa · 2 ^ exponent`. Below a power of two floats lie twice as
-- dense, so the lower end is nearer.
def Interval.ofBinary (mantissa : Nat) (exponent : Int) : Interval :=
  let below := if mantissa = twoPow 52 && exponent ≠ Binary64.leastExponent then 1 else 2
  let scale := twoPow (exponent - 2).toNat
  { low := (4 * mantissa - below) * scale
    value := 4 * mantissa * scale
    high := (4 * mantissa + 2) * scale
    den := twoPow (2 - exponent).toNat
    closed := mantissa % 2 = 0 }

-- The decimal inside the interval on the grid of spacing `10 ^ exponent`, if there is one.
def onGrid? (i : Interval) (exponent : Int) : Option Decimal :=
  let up := tenPow (-exponent).toNat
  let den := i.den * tenPow exponent.toNat
  let lower := i.value * up / den
  let inside (n : Nat) : Bool :=
    if i.closed then i.low * up ≤ n * den && n * den ≤ i.high * up
    else i.low * up < n * den && n * den < i.high * up
  let rest := i.value * up - lower * den
  let upperIsNearer := den < 2 * rest || (den = 2 * rest && lower % 2 = 1)
  if inside lower && !(inside (lower + 1) && upperIsNearer) then some ⟨lower, exponent⟩
  else if inside (lower + 1) then some ⟨lower + 1, exponent⟩
  else none

-- Tries grids of ever more digits; `fuel` bounds the number of grids after the first.
def search (i : Interval) : Nat → Int → Decimal
  | 0, exponent => (onGrid? i exponent).getD ⟨0, 0⟩
  | fuel + 1, exponent => (onGrid? i exponent).getD (search i fuel (exponent - 1))

-- The shortest decimal that reads back as `mantissa · 2 ^ exponent`. Seventeen digits always
-- suffice.
def shortest (mantissa : Nat) (exponent : Int) : Decimal :=
  let i := Interval.ofBinary mantissa exponent
  dropZeros 20 (search i 16 (pointPosition i.value i.den - 1))

end Decimal

end SecretSync
