import SecretSync.Fault

/-!
Dates of the Gregorian calendar, years 1 to 9999. Days are numbered from 1 for the first of January
of year 1, a Monday.
-/

namespace SecretSync

structure Date where
  year : Nat
  month : Nat
  day : Nat
deriving DecidableEq, Repr

namespace Date

def isLeap (year : Nat) : Bool := year % 4 = 0 && (year % 100 ≠ 0 || year % 400 = 0)

def daysInYear (year : Nat) : Nat := if isLeap year then 366 else 365

def daysInMonth (year month : Nat) : Nat :=
  if month = 2 then (if isLeap year then 29 else 28)
  else if month = 4 || month = 6 || month = 9 || month = 11 then 30
  else 31

def ofParts (year month day : Int) : Result Date :=
  if 1 ≤ year && year ≤ 9999 && 1 ≤ month && month ≤ 12 && 1 ≤ day
      && day ≤ daysInMonth year.toNat month.toNat then
    .ok ⟨year.toNat, month.toNat, day.toNat⟩
  else .error .unreadable

def daysBeforeYear (year : Nat) : Nat :=
  let past := year - 1
  past * 365 + past / 4 - past / 100 + past / 400

def daysBeforeMonth (year month : Nat) : Nat :=
  (List.range (month - 1)).foldl (fun days i => days + daysInMonth year (i + 1)) 0

def number (d : Date) : Nat := daysBeforeYear d.year + daysBeforeMonth d.year d.month + d.day

def lastNumber : Nat := daysBeforeYear 10000

def ofNumber (n : Int) : Result Date :=
  if n < 1 || (lastNumber : Int) < n then .error .outOfRange
  else
    let n := n.toNat
    -- a year has at most 366 days, so the guess is not too late; it is less than 40 years too early
    let guess := (n - 1) / 366 + 1
    let year := (List.range 40).foldl
      (fun y _ => if daysBeforeYear (y + 1) < n then y + 1 else y) guess
    let inYear := n - daysBeforeYear year
    let month := (List.range 11).foldl
      (fun m _ => if daysBeforeMonth year (m + 1) < inYear then m + 1 else m) 1
    .ok ⟨year, month, inYear - daysBeforeMonth year month⟩

def plusDays (d : Date) (days : Int) : Result Date := ofNumber (d.number + days)

-- The day of the week, from 0 for Monday to 6 for Sunday.
def weekday (d : Date) : Nat := (d.number + 6) % 7

-- The date of a weekday, from 1 for Monday to 7 for Sunday, in a week of a year. The fourth of
-- January always lies in week 1. Every year is taken to have a week 53.
def ofWeek (year week weekday : Int) : Result Date :=
  if 1 ≤ week && week ≤ 53 && 1 ≤ weekday && weekday ≤ 7 then do
    let fourth ← ofParts year 1 4
    fourth.plusDays ((week - 1) * 7 + (weekday - 1) - fourth.weekday)
  else .error .unreadable

def ofDayOfYear (year day : Int) : Result Date :=
  if 1 ≤ day && day ≤ daysInYear year.toNat then do
    let first ← ofParts year 1 1
    first.plusDays (day - 1)
  else .error .unreadable

end Date

end SecretSync
