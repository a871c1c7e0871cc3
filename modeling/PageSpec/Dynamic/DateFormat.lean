import PageSpec.Dynamic.Calendar
import PageSpec.Dynamic.Locale
/-!
Date formats. A format is a text with tokens for the parts of a moment, each with an optional signed
offset. The offsets of a whole format are added up by unit and applied once, from the largest unit
to the smallest; then the tokens are written. A month token is read as minutes after an hour token
or next to a colon.
-/
namespace PageSpec.Dynamic

/-- What a token writes. -/
inductive DateField where
  | year | shortYear | monthName | monthAbbreviation
  /-- A month, or minutes where the format suggests a time of day. -/
  | monthOrMinute
  | day | hour | halfDayHour | second | milli
  /-- The half of the day in small letters, and in capitals. -/
  | half | capitalHalf
  | zone
  /-- A mark of universal time. -/
  | utcMark
  deriving DecidableEq, Repr

/-- A token: its text, what it writes, and whether a leading zero is written. -/
structure DateToken where
  text : List Char
  field : DateField
  padded : Bool
  deriving DecidableEq, Repr

/-- The tokens, in the order they are tried: no token stands before a longer one it starts. -/
def dateTokens : List DateToken := [
  ⟨['y', 'y', 'y', 'y'], .year, true⟩, ⟨['a', 'a', 'a', 'a'], .year, true⟩,
  ⟨['M', 'M', 'M', 'M'], .monthName, false⟩, ⟨['M', 'M', 'M'], .monthAbbreviation, false⟩,
  ⟨['S', 'S', 'S'], .milli, true⟩, ⟨['y', 'y'], .shortYear, true⟩, ⟨['a', 'a'], .shortYear, true⟩,
  ⟨['M', 'M'], .monthOrMinute, true⟩, ⟨['m', 'm'], .monthOrMinute, true⟩,
  ⟨['d', 'd'], .day, true⟩, ⟨['H', 'H'], .hour, true⟩, ⟨['h', 'h'], .halfDayHour, true⟩,
  ⟨['s', 's'], .second, true⟩, ⟨['A', 'A'], .capitalHalf, false⟩, ⟨['T', 'Z'], .zone, false⟩,
  ⟨['M'], .monthOrMinute, false⟩, ⟨['m'], .monthOrMinute, false⟩, ⟨['d'], .day, false⟩,
  ⟨['H'], .hour, false⟩, ⟨['h'], .halfDayHour, false⟩, ⟨['s'], .second, false⟩,
  ⟨['a'], .half, false⟩, ⟨['Z'], .utcMark, false⟩]

/-- A piece of a format. -/
inductive DatePiece where
  | literal (text : List Char)
  /-- A token with the signed digits after it, as written. -/
  | token (token : DateToken) (offset : List Char)
  deriving DecidableEq, Repr

def DatePiece.raw : DatePiece → List Char
  | .literal text => text
  | .token t offset => t.text ++ offset

/-- A sign and the digits after it; nothing if no digit follows. -/
def signedDigits (cs : List Char) : List Char :=
  match cs with
  | c :: r =>
    let ds := r.takeWhile Text.isDigit
    if (c = '+' ∨ c = '-') ∧ ¬ ds.isEmpty then c :: ds else []
  | [] => []

/-- Puts a character in front of the first literal, or a new literal in front. -/
def pushLiteral (c : Char) : List DatePiece → List DatePiece
  | .literal cs :: ps => .literal (c :: cs) :: ps
  | ps => .literal [c] :: ps

/-- The pieces of a format. At every place the first token of the table that fits is taken. -/
def datePieces (cs : List Char) : List DatePiece :=
  match cs with
  | [] => []
  | c :: rest =>
    match dateTokens.find? (·.text.isPrefixOf (c :: rest)) with
    | some t =>
      let after := (c :: rest).drop t.text.length
      let offset := signedDigits after
      let next := after.drop offset.length
      if _ : next.length < (c :: rest).length then .token t offset :: datePieces next
      else pushLiteral c (datePieces rest)
    | none => pushLiteral c (datePieces rest)
termination_by cs.length
decreasing_by
  · assumption
  · simp
  · simp

/-! ## Units -/

/-- Units that offsets are added up in, from the largest. -/
inductive DateUnit where
  | years | months | days | hours | minutes | seconds | millis
  deriving DecidableEq, Repr

/-- The unit of a token's offset; tokens without one ignore it. `minutes` says whether months are minutes
in the token's place. -/
def DateField.unit? (minutes : Bool) : DateField → Option DateUnit
  | .year | .shortYear => some .years
  | .monthName | .monthAbbreviation => some .months
  | .monthOrMinute => some (if minutes then .minutes else .months)
  | .day => some .days
  | .hour | .halfDayHour => some .hours
  | .second => some .seconds
  | .milli => some .millis
  | .half | .capitalHalf | .zone | .utcMark => none

def DateToken.isHour (t : DateToken) : Bool := t.field == .hour || t.field == .halfDayHour

def DatePiece.isHour : DatePiece → Bool
  | .token t _ => t.isHour
  | .literal _ => false

/-- Whether the piece before a token ends in a colon, or the one after it starts with one. -/
def besideColon (before after : Option DatePiece) : Bool :=
  (before.bind fun p => p.raw.getLast?) == some ':' || (after.bind fun p => p.raw.head?) == some ':'

/-- Whether a month token means minutes, given the pieces before it, nearest first, and after it. -/
def readsAsMinutes (before after : List DatePiece) : Bool :=
  before.any DatePiece.isHour || besideColon before.head? after.head?

/-! ## Offsets -/

/-- The bounds of a sum of offsets. -/
def maxOffset : Int := greatestInt64
def minOffset : Int := leastInt64

/-- The value of signed digits. -/
def signedValue (raw : List Char) : Int :=
  let n : Int := Text.digitsValue (raw.drop 1)
  if raw.head? = some '-' then -n else n

/-- The value of an offset; one that does not fit into 64 bits counts as zero. -/
def offsetValue (raw : List Char) : Int :=
  if minOffset ≤ signedValue raw ∧ signedValue raw ≤ maxOffset then signedValue raw else 0

/-- A sum that stays within 64 bits. -/
def saturate (n : Int) : Int := max minOffset (min maxOffset n)

/-- The offsets of a format, added up by unit. -/
structure Offsets where
  years : Int
  months : Int
  days : Int
  hours : Int
  minutes : Int
  seconds : Int
  millis : Int
  deriving DecidableEq, Repr

namespace Offsets

def zero : Offsets := ⟨0, 0, 0, 0, 0, 0, 0⟩

/-- The sum for a unit. -/
def of (o : Offsets) : DateUnit → Int
  | .years => o.years
  | .months => o.months
  | .days => o.days
  | .hours => o.hours
  | .minutes => o.minutes
  | .seconds => o.seconds
  | .millis => o.millis

/-- Adds an offset to the sum for its unit. -/
def add (o : Offsets) (u : DateUnit) (n : Int) : Offsets :=
  match u with
  | .years => { o with years := saturate (o.years + n) }
  | .months => { o with months := saturate (o.months + n) }
  | .days => { o with days := saturate (o.days + n) }
  | .hours => { o with hours := saturate (o.hours + n) }
  | .minutes => { o with minutes := saturate (o.minutes + n) }
  | .seconds => { o with seconds := saturate (o.seconds + n) }
  | .millis => { o with millis := saturate (o.millis + n) }

end Offsets

/-- Adds up the offsets of pieces. `hour` says whether an hour token came before them, and `last` is the
piece right before them. -/
def collectOffsets (hour : Bool) (last : Option DatePiece) (sums : Offsets) : List DatePiece → Offsets
  | [] => sums
  | .literal text :: after => collectOffsets hour (some (.literal text)) sums after
  | .token t offset :: after =>
    let next := match t.field.unit? (hour || besideColon last after.head?) with
      | some u => sums.add u (offsetValue offset)
      | none => sums
    collectOffsets (hour || t.isHour) (some (.token t offset)) next after

/-- The moment some months later, if their number fits into 32 bits. -/
def Moment.addMonths? (m : Moment) (months : Int) : Option Moment :=
  if months.natAbs < twoTo 32 then m.shiftMonths? months else none

/-- The moment after some offsets, unless a step leaves the range. -/
def Offsets.shift? (o : Offsets) (m : Moment) : Option Moment := do
  let m ← m.addMonths? (o.years * 12)
  let m ← m.addMonths? o.months
  let m ← m.shift? (o.days * Moment.perDay)
  let m ← m.shift? (o.hours * 3600000)
  let m ← m.shift? (o.minutes * 60000)
  let m ← m.shift? (o.seconds * 1000)
  m.shift? o.millis

/-- The moment after all offsets of a format. -/
def applyOffsets (ps : List DatePiece) (m : Moment) : Option Moment :=
  (collectOffsets false none .zero ps).shift? m

/-! ## Writing -/

/-- The clock and the way dates are written. -/
structure DateSettings where
  /-- What the clock shows. -/
  now : Moment
  /-- Minutes east of universal time, written by the zone token. -/
  offset : Int
  locale : Locale
  /-- Dates are in universal time and marked so. -/
  utc : Bool
  deriving Repr

/-- A year of four characters at least, the sign included. -/
def yearText (y : Int) : String :=
  if y < 0 then "-" ++ Text.padded 3 y.natAbs else Text.padded 4 y.toNat

/-- A zone as a sign, two digits of hours and two of minutes. -/
def zoneText (minutes : Int) : String :=
  (if 0 ≤ minutes then "+" else "-") ++ Text.padded 2 (minutes.natAbs / 60) ++
    Text.padded 2 (minutes.natAbs % 60)

def hourOfHalf (hour : Nat) : Nat := if hour % 12 = 0 then 12 else hour % 12

/-- What a token writes in its place. -/
def DateToken.write (t : DateToken) (s : DateSettings) (m : Moment) (before after : List DatePiece) :
    String :=
  let d := m.date
  let number (n : Nat) : String := Text.padded (if t.padded then 2 else 1) n
  match t.field with
  | .year => yearText d.year
  | .shortYear => Text.padded 2 (d.year % 100).toNat
  | .monthName => s.locale.longName (d.month - 1)
  | .monthAbbreviation => s.locale.shortName (d.month - 1)
  | .monthOrMinute => number (if readsAsMinutes before after then m.minute else d.month)
  | .day => number d.day
  | .hour => number m.hour
  | .halfDayHour => number (hourOfHalf m.hour)
  | .second => number m.second
  | .milli => Text.padded 3 m.milli
  | .half => if 12 ≤ m.hour then "pm" else "am"
  | .capitalHalf => if 12 ≤ m.hour then "PM" else "AM"
  | .zone => zoneText s.offset
  | .utcMark => if s.utc then "Z" else ""

/-- The pieces written out; `before` holds the pieces already written, nearest first. -/
def writePieces (s : DateSettings) (m : Moment) (before : List DatePiece) :
    List DatePiece → List Char
  | [] => []
  | p :: after =>
    let here := match p with
      | .literal text => text
      | .token t _ => (t.write s m before after).toList
    here ++ writePieces s m (p :: before) after

/-- Writes a moment in a format, after the format's offsets. -/
def formatDate (s : DateSettings) (m : Moment) (format : String) : Except Failure String :=
  let ps := datePieces format.toList
  match applyOffsets ps m with
  | some r => .ok (.ofList (writePieces s r [] ps))
  | none => .error (.mistake (.dateRange format))

end PageSpec.Dynamic
