import SecretSync.Number.Binary64
import SecretSync.Text.Blank
import SecretSync.Text.Digit

/-!
Numerals in settings, labels and declarations. A numeral may stand between white space and may use
the decimal digits of any script; a sign may come first, and a single underscore may stand between
two digits.
-/

namespace SecretSync.Numeral

-- An integer numeral has at most this many digits.
def maxDigits : Nat := 4300

-- The numeral in ASCII: digits of other scripts become ASCII digits and white space outside ASCII
-- becomes the space. Any other code point outside ASCII belongs to no numeral.
def toAscii? (t : Text) : Option Text :=
  t.mapM fun c =>
    if c.isAscii then some c
    else if c.isWideBlank then some ' '
    else c.decimal?.map fun d => CodePoint.ofNat (0x30 + d)

def normalize? (t : Text) : Option Text :=
  (toAscii? t).map (Text.trim CodePoint.isNumeralBlank)

-- Takes off a sign; the first part tells whether the numeral is negative.
def splitSign : Text → Bool × Text
  | c :: cs => if c = '-' then (true, cs) else if c = '+' then (false, cs) else (false, c :: cs)
  | [] => (false, [])

-- The digits of a text of digits with single underscores between digits.
def digits? (t : Text) : Option (List Nat) := do
  let groups ← (Text.split '_' t).mapM fun group =>
    if group.isEmpty then none else group.mapM CodePoint.digit?
  pure groups.flatten

def ofDigits (digits : List Nat) : Nat := digits.foldl (fun n d => n * 10 + d) 0

def nat? (digits : List Nat) : Option Nat :=
  if maxDigits < digits.length then none else some (ofDigits digits)

def ofInt? (n : Int) : Option Text :=
  if maxDigits < (Text.ofNat n.natAbs).length then none else some (Text.ofInt n)

def int? (t : Text) : Option Int := do
  let t ← normalize? t
  let (negative, body) := splitSign t
  let n ← nat? (← digits? body)
  pure (if negative then -(n : Int) else n)

-- Removes the underscores of a text, each of which must stand between two digits. `afterDigit`
-- tells whether a digit stands before the text.
def dropGrouping? (afterDigit : Bool) : Text → Option Text
  | [] => some []
  | c :: cs =>
    if c = '_' then
      match cs with
      | d :: _ => if afterDigit && d.digit?.isSome then dropGrouping? false cs else none
      | [] => none
    else (dropGrouping? c.digit?.isSome cs).map (c :: ·)

def takeDigits : Text → List Nat × Text
  | [] => ([], [])
  | c :: cs =>
    match c.digit? with
    | some d => let (ds, rest) := takeDigits cs; (d :: ds, rest)
    | none => ([], c :: cs)

-- The digits after a leading point and what follows them; both are empty and the text unchanged
-- when no point leads.
def takeFraction : Text → List Nat × Text
  | c :: cs => if c = '.' then takeDigits cs else ([], c :: cs)
  | [] => ([], [])

-- The exponent at the end of a numeral: nothing, or the letter, a sign if wanted, and digits.
def exponent? : Text → Option Int
  | [] => some 0
  | c :: cs =>
    if c = 'e' || c = 'E' then
      let (negative, body) := splitSign cs
      match takeDigits body with
      | (d :: ds, []) =>
        let n := ofDigits (d :: ds)
        some (if negative then -(n : Int) else n)
      | _ => none
    else none

def unsignedFloat? (negative : Bool) (t : Text) : Option Float := do
  let t ← dropGrouping? false t
  let (whole, t) := takeDigits t
  let (fraction, t) := takeFraction t
  if whole.isEmpty && fraction.isEmpty then none
  else
    let exponent ← exponent? t
    pure (Binary64.floatOfDecimal negative (ofDigits (whole ++ fraction))
      (exponent - fraction.length))

def word? (negative : Bool) (t : Text) : Option Float :=
  let t := t.toLower
  if t = Text.ofString "inf" || t = Text.ofString "infinity" then
    some (Binary64.floatOfRatio negative (twoPow 1024) 1)
  else if t = Text.ofString "nan" then some (0 / 0)
  else none

def float? (t : Text) : Option Float := do
  let t ← normalize? t
  let (negative, body) := splitSign t
  word? negative body <|> unsignedFloat? negative body

end SecretSync.Numeral
