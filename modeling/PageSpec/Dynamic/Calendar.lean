import PageSpec.Text.Find
/-!
The civil calendar: days as numbers counted from the first of January 1970, their dates, and moments
as days with the milliseconds since midnight. Dates range over the years from -262143 to 262142.
-/
namespace PageSpec.Dynamic

def isLeapYear (y : Int) : Bool := y % 4 == 0 && (y % 100 != 0 || y % 400 == 0)

/-- The length of a month, numbered from 1. -/
def monthLength (y : Int) (m : Nat) : Nat :=
  match m with
  | 2 => if isLeapYear y then 29 else 28
  | 4 | 6 | 9 | 11 => 30
  | _ => 31

/-- A date of the calendar; months and days count from 1. -/
structure Date where
  year : Int
  month : Nat
  day : Nat
  deriving DecidableEq, Repr

def minYear : Int := -262143
def maxYear : Int := 262142

/-- Whether a date exists and lies in range. -/
def Date.valid (d : Date) : Bool :=
  minYear ≤ d.year && d.year ≤ maxYear && 1 ≤ d.month && d.month ≤ 12 && 1 ≤ d.day &&
    d.day ≤ monthLength d.year d.month

/-- The number of a date. Years are counted from March, so that the leap day comes last. -/
def Date.toDay (d : Date) : Int :=
  let y := if d.month ≤ 2 then d.year - 1 else d.year
  let era := y / 400
  let yearOfEra := y - era * 400
  let month := if 2 < d.month then d.month - 3 else d.month + 9
  let dayOfYear : Int := (153 * month + 2) / 5 + d.day - 1
  era * 146097 + (yearOfEra * 365 + yearOfEra / 4 - yearOfEra / 100 + dayOfYear) - 719468

/-- The date of a number. -/
def Date.ofDay (n : Int) : Date :=
  let z := n + 719468
  let era := z / 146097
  let dayOfEra := z - era * 146097
  let yearOfEra := (dayOfEra - dayOfEra / 1460 + dayOfEra / 36524 - dayOfEra / 146096) / 365
  let dayOfYear := dayOfEra - (365 * yearOfEra + yearOfEra / 4 - yearOfEra / 100)
  let m := (5 * dayOfYear + 2) / 153
  let day := dayOfYear - (153 * m + 2) / 5 + 1
  let month := if m < 10 then m + 3 else m - 9
  ⟨yearOfEra + era * 400 + (if month ≤ 2 then 1 else 0), month.toNat, day.toNat⟩

def minDay : Int := Date.toDay ⟨minYear, 1, 1⟩
def maxDay : Int := Date.toDay ⟨maxYear, 12, 31⟩

/-- A moment without a time zone, in milliseconds from the start of 1970. -/
structure Moment where
  millis : Int
  deriving DecidableEq, Repr, Inhabited

namespace Moment

def perDay : Int := 86400000
def dayNumber (m : Moment) : Int := m.millis / perDay
def date (m : Moment) : Date := .ofDay m.dayNumber
/-- Milliseconds since midnight. -/
def clock (m : Moment) : Nat := (m.millis % perDay).toNat
def hour (m : Moment) : Nat := m.clock / 3600000
def minute (m : Moment) : Nat := m.clock / 60000 % 60
def second (m : Moment) : Nat := m.clock / 1000 % 60
def milli (m : Moment) : Nat := m.clock % 1000

def inRange (m : Moment) : Bool := minDay ≤ m.dayNumber && m.dayNumber ≤ maxDay
/-- Midnight of a day. -/
def ofDay (n : Int) : Moment := ⟨n * perDay⟩

/-- The moment some milliseconds later, unless that leaves the range. -/
def shift? (m : Moment) (millis : Int) : Option Moment :=
  let r : Moment := ⟨m.millis + millis⟩
  if r.inRange then some r else none

/-- The same time of day some months later; days beyond the end of a month become its last day. -/
def shiftMonths? (m : Moment) (months : Int) : Option Moment :=
  let d := m.date
  let total := d.year * 12 + (d.month - 1 : Int) + months
  let year := total / 12
  let month := (total % 12).toNat + 1
  let r : Date := ⟨year, month, min d.day (monthLength year month)⟩
  if r.valid then some ⟨r.toDay * perDay + m.clock⟩ else none

/-- A year with four digits at least; years outside 0 to 9999 get a sign. -/
def signedYear (y : Int) : String :=
  if 0 ≤ y ∧ y ≤ 9999 then Text.padded 4 y.toNat
  else (if y < 0 then "-" else "+") ++ Text.padded 4 y.natAbs

/-- Date and time with milliseconds, marked as universal time. -/
def toUtcText (m : Moment) : String :=
  let d := m.date
  s!"{signedYear d.year}-{Text.padded 2 d.month}-{Text.padded 2 d.day}" ++
    s!"T{Text.padded 2 m.hour}:{Text.padded 2 m.minute}:{Text.padded 2 m.second}" ++
    s!".{Text.padded 3 m.milli}Z"

end Moment

/-- A moment on a clock with an offset from universal time, in minutes. -/
structure ZonedMoment where
  /-- What the clock shows. -/
  wall : Moment
  offset : Int
  deriving DecidableEq, Repr, Inhabited

/-- The same moment in universal time. -/
def ZonedMoment.utc (z : ZonedMoment) : Moment := ⟨z.wall.millis - z.offset * 60000⟩

/-! ## Reading -/

private def number? (cs : List Char) (size : Nat) : Option (Nat × List Char) :=
  let ds := cs.take size
  if ds.length = size ∧ ds.all Text.isDigit then some (Text.digitsValue ds, cs.drop size) else none

private def sign? (c : Char) : List Char → Option (List Char)
  | d :: cs => if c = d then some cs else none
  | [] => none

/-- Milliseconds from the digits after a point; digits beyond the third are dropped. -/
private def readFraction (cs : List Char) : Nat × List Char :=
  match cs with
  | '.' :: r =>
    let ds := r.takeWhile Text.isDigit
    (Text.digitsValue ((ds ++ ['0', '0', '0']).take 3), r.dropWhile Text.isDigit)
  | _ => (0, cs)

/-- A date and a time of day with `T` or a blank between them, and what follows. -/
def readMoment (cs : List Char) : Option (Moment × List Char) := do
  let (y, r) ← number? cs 4
  let (m, r) ← number? (← sign? '-' r) 2
  let (d, r) ← number? (← sign? '-' r) 2
  let r ← sign? 'T' r <|> sign? 't' r <|> sign? ' ' r
  let (hh, r) ← number? r 2
  let (mm, r) ← number? (← sign? ':' r) 2
  let (ss, r) ← number? (← sign? ':' r) 2
  let (ms, r) := readFraction r
  let date : Date := ⟨y, m, d⟩
  if date.valid ∧ hh < 24 ∧ mm < 60 ∧ ss < 60 then
    some (⟨date.toDay * Moment.perDay + (((hh * 60 + mm) * 60 + ss) * 1000 + ms : Nat)⟩, r)
  else none

/-- A moment written without a zone. -/
def Moment.parse? (s : String) : Option Moment := do
  let (m, r) ← readMoment s.toList
  if r.isEmpty then some m else none

/-- A moment written with `Z` or an offset of hours and minutes. -/
def ZonedMoment.parse? (s : String) : Option ZonedMoment := do
  let (m, r) ← readMoment s.toList
  match r with
  | ['Z'] | ['z'] => some ⟨m, 0⟩
  | c :: r =>
    let (hh, r) ← number? r 2
    let (mm, r) ← number? (← sign? ':' r) 2
    if !r.isEmpty || 24 ≤ hh || 60 ≤ mm then none
    else if c = '+' then some ⟨m, (hh * 60 + mm : Nat)⟩
    else if c = '-' then some ⟨m, -((hh * 60 + mm : Nat) : Int)⟩
    else none
  | [] => none

end PageSpec.Dynamic
