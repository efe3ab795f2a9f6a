import SecretSync.Number.Reader
import SecretSync.Time.Date

/-!
Timestamps in the forms of ISO 8601: a calendar date, a week date or a day of a year, then
optionally one code point of any kind and a time of day with an offset. Seconds may have a fraction,
cut off after six digits. 24:00 is the midnight that ends the day.

The operator leaves the reading of dates to a date library and has no rules of its own for it. The
forms taken and refused here are those that the library documents for its ISO reader.
-/

namespace SecretSync

-- A time of day on a date. The offset is in minutes east of UTC.
structure Timestamp where
  date : Date
  hour : Nat
  minute : Nat
  second : Nat
  microsecond : Nat
  offset : Option Int
deriving DecidableEq, Repr

namespace Timestamp

private def dash : CodePoint := '-'

private def colon : CodePoint := ':'

-- The number in the first code points of a text, which may be fewer than asked for.
def leadingNumber (width : Nat) (t : Text) : Result Int :=
  Result.ofOption .unreadable (Numeral.int? (t.take width))

-- A calendar date: year, year and month, or all three parts, with dashes or, in the full form,
-- without.
def calendarDate (t : Text) : Result ((Int × Int × Int) × Text) := do
  if t.length < 4 then throw .unreadable
  let year ← leadingNumber 4 t
  let rest := t.drop 4
  if rest.isEmpty then return ((year, 1, 1), [])
  let dashed := rest.head? = some dash
  let rest := if dashed then rest.drop 1 else rest
  if rest.length < 2 then throw .unreadable
  let month ← leadingNumber 2 rest
  let rest := rest.drop 2
  if rest.isEmpty then
    if dashed then return ((year, month, 1), []) else throw .unreadable
  if dashed && rest.head? ≠ some dash then throw .unreadable
  let rest := if dashed then rest.drop 1 else rest
  if rest.length < 2 then throw .unreadable
  let day ← leadingNumber 2 rest
  pure ((year, month, day), rest.drop 2)

-- A week date, with a dash before the week and before the day or with neither, or a day of a year.
def otherDate (t : Text) : Result (Date × Text) := do
  if t.length < 4 then throw .unreadable
  let year ← leadingNumber 4 t
  let rest := t.drop 4
  let dashed := decide (rest.head? = some dash)
  let rest := if dashed then rest.drop 1 else rest
  if rest.head? = some 'W' then
    let week ← leadingNumber 2 (rest.drop 1)
    let rest := rest.drop 3
    if rest.isEmpty then
      pure (← Date.ofWeek year week 1, [])
    else
      if decide (rest.head? = some dash) ≠ dashed then throw .unreadable
      let rest := if dashed then rest.drop 1 else rest
      let weekday ← leadingNumber 1 rest
      pure (← Date.ofWeek year week weekday, rest.drop 1)
  else
    if rest.length < 3 then throw .unreadable
    let day ← leadingNumber 3 rest
    pure (← Date.ofDayOfYear year day, rest.drop 3)

def dateParts (t : Text) : Result ((Int × Int × Int) × Text) :=
  match calendarDate t with
  | .ok found => .ok found
  | .error _ => do
    let (date, rest) ← otherDate t
    pure ((date.year, date.month, date.day), rest)

def readOffset (t : Text) : Result Int := do
  if t = Text.ofString "Z" || t = Text.ofString "z" then return 0
  if t.length ≠ 3 && t.length ≠ 5 && t.length ≠ 6 then throw .unreadable
  let sign : Int ← match t.head? with
    | some c =>
      if c = dash then pure (-1) else if c = '+' then pure 1 else throw .unreadable
    | none => throw .unreadable
  let hours ← leadingNumber 2 (t.drop 1)
  let minutes ←
    if t.length = 3 then pure 0
    else leadingNumber 6 (if (t.drop 3).head? = some colon then t.drop 4 else t.drop 3)
  if 59 < minutes || 23 < hours then throw .unreadable
  pure (sign * (hours * 60 + minutes))

structure TimeParts where
  hour : Int := 0
  minute : Int := 0
  second : Int := 0
  microsecond : Nat := 0
  offset : Option Int := none

-- A fraction of a second, in microseconds; further digits are cut off.
def readFraction (t : Text) : Option (Nat × Text) :=
  match t with
  | c :: cs =>
    if c = '.' || c = ',' then
      match Numeral.takeDigits cs with
      | ([], _) => none
      | (digits, rest) =>
        let kept := digits.take 6
        some (Numeral.ofDigits kept * tenPow (6 - kept.length), rest)
    else none
  | [] => none

def startsOffset (c : CodePoint) : Bool := c = dash || c = '+' || c = 'Z' || c = 'z'

def readEnding (parts : TimeParts) (t : Text) : Result TimeParts := do
  let (parts, rest) := match t with
    | c :: _ =>
      if startsOffset c then (parts, t)
      else match readFraction t with
        | some (n, rest) => ({ parts with microsecond := n }, rest)
        | none => (parts, t)
    | [] => (parts, t)
  match rest with
  | [] => pure parts
  | c :: _ =>
    if startsOffset c then return { parts with offset := some (← readOffset rest) }
    throw .unreadable

-- A time of day: hours, then minutes, then seconds, the later ones optional and all separated by
-- colons or none. An offset may follow each of them.
def readTime (t : Text) : Result TimeParts := do
  if t.length < 2 then throw .unreadable
  let offsetOr (parts : TimeParts) (rest : Text) (otherwise : Result TimeParts) :
      Result TimeParts :=
    match rest with
    | [] => .ok parts
    | c :: _ =>
      if startsOffset c then do pure { parts with offset := some (← readOffset rest) }
      else otherwise
  offsetOr {} t do
    let hour ← leadingNumber 2 t
    let rest := t.drop 2
    offsetOr { hour } rest do
      let separated := decide (rest.head? = some colon)
      let rest := if separated then rest.drop 1 else rest
      let minute ← leadingNumber 2 rest
      let rest := rest.drop 2
      offsetOr { hour, minute } rest do
        if separated && rest.head? ≠ some colon then throw .unreadable
        let rest := if separated then rest.drop 1 else rest
        let second ← leadingNumber 2 rest
        readEnding { hour, minute, second } (rest.drop 2)

-- The timestamp with these parts. Only midnight has hour 24.
def ofParts (date : Int × Int × Int) (parts : TimeParts) : Result Timestamp := do
  let endsDay := decide (parts.hour = 24)
  if endsDay && (parts.minute ≠ 0 || parts.second ≠ 0 || parts.microsecond ≠ 0) then
    throw .unreadable
  let hour := if endsDay then 0 else parts.hour
  let date ← Date.ofParts date.1 date.2.1 date.2.2
  let inRange (n limit : Int) : Bool := 0 ≤ n && n < limit
  if inRange hour 24 && inRange parts.minute 60 && inRange parts.second 60 then
    let date ← if endsDay then date.plusDays 1 else pure date
    pure {
      date, hour := hour.toNat, minute := parts.minute.toNat, second := parts.second.toNat
      microsecond := parts.microsecond, offset := parts.offset }
  else throw .unreadable

def ofText (t : Text) : Result Timestamp := do
  if t.any fun c => !c.isAscii then throw .unreadable
  let (date, rest) ← dateParts t
  match rest with
  | [] => ofParts date {}
  | _ :: rest => ofParts date (← readTime rest)

def offsetText (minutes : Int) : Text :=
  (if minutes < 0 then dash else ('+' : CodePoint))
    :: Text.padded 2 (minutes.natAbs / 60) ++ colon :: Text.padded 2 (minutes.natAbs % 60)

-- The timestamp in the extended form. A fraction of a second is left out when it is zero.
def toText (s : Timestamp) : Text :=
  Text.padded 4 s.date.year ++ dash :: Text.padded 2 s.date.month
    ++ dash :: Text.padded 2 s.date.day
    ++ ('T' : CodePoint) :: Text.padded 2 s.hour ++ colon :: Text.padded 2 s.minute
    ++ colon :: Text.padded 2 s.second
    ++ (if s.microsecond = 0 then [] else ('.' : CodePoint) :: Text.padded 6 s.microsecond)
    ++ (match s.offset with
      | some minutes => offsetText minutes
      | none => [])

end Timestamp

end SecretSync
