import PageSpec.Dynamic.DateFormat
import PageSpec.Dynamic.Dice
import PageSpec.Text.Blank
/-!
Date calls: `date(today+7, "dd/MM/yyyy")` and its like, wherever they stand in a text. A call names
a base date and a format; without a base, a random date near the clock is written.
-/
namespace PageSpec.Dynamic

/-- A date call, with the text before it, between its brackets and after it. -/
structure FoundCall where
  before : List Char
  inner : List Char
  after : List Char
  deriving DecidableEq, Repr

/-- The inner text and the rest, if a call with something in it starts here. -/
def callHere (cs : List Char) : Option (List Char × List Char) :=
  if (cs.take 4).map Char.toLower = ['d', 'a', 't', 'e'] then
    match Text.trimStart (cs.drop 4) with
    | '(' :: r =>
      match r.takeWhile (· ≠ ')'), r.dropWhile (· ≠ ')') with
      | c :: inner, _ :: after => some (c :: inner, after)
      | _, _ => none
    | _ => none
  else none

/-- The first date call of a text. -/
def findCall : List Char → Option FoundCall
  | [] => none
  | c :: cs =>
    match callHere (c :: cs) with
    | some (inner, after) => some ⟨[], inner, after⟩
    | none => (findCall cs).map fun f => { f with before := c :: f.before }

/-- Whether a text starts with a date call, blanks aside. -/
def isDateCall (s : String) : Bool := (callHere (Text.trimStart s.toList)).isSome

/-- The format that a base date has when none is given. -/
def defaultDateFormat : String := "yyyy-MM-dd"

/-- The text without quotes of one kind around it. -/
def unquoteFormat (cs : List Char) : List Char :=
  match cs with
  | a :: b :: r =>
    if (a = '"' ∨ a = '\'') ∧ (b :: r).getLast? = some a then (b :: r).dropLast else cs
  | _ => cs

/-- A whole number of 64 bits after an optional sign. -/
def readInt64? (cs : List Char) : Option Int :=
  let (negative, ds) := match cs with
    | '-' :: r => (true, r)
    | '+' :: r => (false, r)
    | r => (false, r)
  if ds.isEmpty || !ds.all Text.isDigit then none
  else
    let n : Int := Text.digitsValue ds
    let v := if negative then -n else n
    if minOffset ≤ v ∧ v ≤ maxOffset then some v else none

/-- Four digits, two digits and two digits, with hyphens between them. -/
def isoDay? (cs : List Char) : Option Date :=
  match cs with
  | [a, b, c, d, '-', e, f, '-', g, h] =>
    if [a, b, c, d, e, f, g, h].all Text.isDigit then
      some ⟨Text.digitsValue [a, b, c, d], Text.digitsValue [e, f], Text.digitsValue [g, h]⟩
    else none
  | _ => none

/-- The base date of a call: `today` with an optional number of days, or a written day. -/
def readBase (s : DateSettings) (raw : List Char) : Except Failure (Option Moment) :=
  match Text.after? "today".toList (raw.map Char.toLower) with
  | some rest =>
    let rest := rest.filter (!Text.isBlank ·)
    let fromToday (days : Int) : Except Failure (Option Moment) :=
      let day := s.now.dayNumber + days
      if minDay ≤ day ∧ day ≤ maxDay then .ok (some (.ofDay day))
      else .error (.mistake (.dateRange (.ofList raw)))
    match rest with
    | [] => fromToday 0
    | c :: more =>
      if (c = '+' ∨ c = '-') ∧ ¬ more.isEmpty then
        match readInt64? rest with
        | some days => fromToday days
        | none => .error (.mistake (.dayOffset (.ofList raw)))
      else .ok none
  | none =>
    match isoDay? raw with
    | none => .ok none
    | some d =>
      if d.valid then .ok (some (.ofDay d.toDay)) else .error (.mistake (.day (.ofList raw)))

/-- A moment between three years before the clock and one year after it. -/
def randomMoment (s : DateSettings) : Draw Moment := do
  let start := (s.now.shiftMonths? (-36)).getD s.now
  let stop := (s.now.shiftMonths? 12).getD s.now
  let span := max 0 (stop.millis - start.millis)
  return ⟨start.millis + (← Draw.between 0 span)⟩

/-- Drawing that may fail; what was drawn before a failure stays drawn. -/
abbrev Roll := ExceptT Failure Draw

/-- What a call with this inner text writes. -/
def renderCall (s : DateSettings) (inner : List Char) : Roll String := do
  let (base, format) := match Text.splitOnce ',' inner with
    | some (b, f) => (Text.trimChars b, some (String.ofList (unquoteFormat (Text.trimChars f))))
    | none => (Text.trimChars inner, none)
  match ← liftExcept (readBase s base) with
  | some m => liftExcept (formatDate s m (format.getD defaultDateFormat))
  | none =>
    let m ← (randomMoment s : Draw Moment)
    liftExcept (formatDate s m (.ofList (unquoteFormat (Text.trimChars inner))))
where
  liftExcept {α : Type} (r : Except Failure α) : Roll α := ExceptT.mk (pure r)

/-- Writes every call of a text, from the left; all else is copied. -/
def resolveCalls (s : DateSettings) (cs : List Char) : Roll (List Char) :=
  match findCall cs with
  | none => return cs
  | some f => do
    let text ← renderCall s f.inner
    if f.after.length < cs.length then
      return f.before ++ text.toList ++ (← resolveCalls s f.after)
    else return f.before ++ text.toList ++ f.after
termination_by cs.length

end PageSpec.Dynamic
