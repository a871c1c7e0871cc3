import PageSpec.Failure
import PageSpec.Text.Blank
import PageSpec.Text.Letters
/-!
Calls for made-up data: `faker.number.int(\x7b min: 1 \x7d)` is a dotted path and a list of JSON
arguments. Arguments are split at commas outside quotes and brackets; each is read as JSON, as JSON
with bare keys and single quotes, as a word or number, or else as a text.
-/
namespace PageSpec.Dynamic

/-- A call: the path below the root, and its arguments. -/
structure DataCall where
  path : List String
  args : List Json

namespace DataCall

/-- The namespace that all calls start with. -/
def root : String := "faker"
def key (c : DataCall) : String := ".".intercalate c.path
/-- The path with the root. -/
def fullPath (c : DataCall) : String := s!"{root}.{c.key}"

/-! ## Splitting -/

/-- Where the splitter stands. -/
inductive SplitState where
  | plain (depth : Nat)
  /-- Inside quotes, possibly just after a backslash. -/
  | quoted (quote : Char) (escaped : Bool) (depth : Nat)
  deriving DecidableEq, Repr

/-- The state after a character. -/
def SplitState.next : SplitState → Char → SplitState
  | .quoted q true d, _ => .quoted q false d
  | .quoted q false d, c =>
    if c = '\\' then .quoted q true d else if c = q then .plain d else .quoted q false d
  | .plain d, c =>
    if c = '"' ∨ c = '\'' then .quoted c false d
    else if c = '{' ∨ c = '[' ∨ c = '(' then .plain (d + 1)
    else if c = '}' ∨ c = ']' ∨ c = ')' then .plain (d - 1)
    else .plain d

/-- The text up to the first separating comma, and the stretches after it. -/
def splitFrom (s : SplitState) : List Char → List Char × List (List Char)
  | [] => ([], [])
  | c :: cs =>
    if s = .plain 0 ∧ c = ',' then
      let (h, t) := splitFrom (.plain 0) cs
      ([], h :: t)
    else
      let (h, t) := splitFrom (s.next c) cs
      (c :: h, t)

/-- The arguments of a call as written, without the blanks around them. -/
def splitArgs (cs : List Char) : List (List Char) :=
  let (h, t) := splitFrom (.plain 0) cs
  let parts := (h :: t).map Text.trimChars
  if parts = [[]] then [] else parts

/-! ## Arguments -/

/-- Where the reader of loose JSON stands. -/
inductive LooseState where
  | outside
  /-- Where a key may come. -/
  | beforeKey
  | inside (escaped : Bool)
  deriving DecidableEq, Repr

def isKeyStart (c : Char) : Bool := Text.isLetter c || c == '_' || c == '$'
def isKeyChar (c : Char) : Bool := Text.isLetterOrDigit c || c == '_' || c == '$'

/-- Puts double quotes around bare keys: identifiers after a brace or comma and before a colon. -/
def quoteKeys (s : LooseState) (cs : List Char) : List Char :=
  match cs with
  | [] => []
  | c :: r =>
    match s with
    | .inside true => c :: quoteKeys (.inside false) r
    | .inside false =>
      c :: quoteKeys (if c = '\\' then .inside true else if c = '"' then .outside else .inside false) r
    | _ =>
      if c = '"' then c :: quoteKeys (.inside false) r
      else if c = '{' ∨ c = ',' then c :: quoteKeys .beforeKey r
      else if Text.isBlank c then c :: quoteKeys s r
      else if s = .beforeKey ∧ isKeyStart c then
        let name := c :: r.takeWhile isKeyChar
        let rest := r.dropWhile isKeyChar
        let isKey := (Text.trimStart rest).head? = some ':'
        (if isKey then '"' :: (name ++ ['"']) else name) ++ quoteKeys .outside rest
      else c :: quoteKeys .outside r
termination_by cs.length
decreasing_by
  all_goals simp_wf
  have := (List.dropWhile_sublist isKeyChar (l := r)).length_le
  omega

/-- Loose JSON made strict: double quotes for single ones, and quotes around bare keys. -/
def tighten (cs : List Char) : List Char :=
  quoteKeys .outside (cs.map fun c => if c = '\'' then '"' else c)

/-- A list of decimal digits, at least one. -/
def areDigits (cs : List Char) : Bool := !cs.isEmpty && cs.all Text.isDigit

def isSign (c : Char) : Bool := c == '+' || c == '-'

def dropSign (cs : List Char) : List Char :=
  match cs with
  | c :: r => if isSign c then r else cs
  | [] => []

/-- A decimal number: an integer if it has neither fraction nor exponent and fits into 64 bits. -/
def readNumber (cs : List Char) : Option Json :=
  let negative := cs.head? = some '-'
  let body := dropSign cs
  let isE (c : Char) : Bool := c == 'e' || c == 'E'
  let mantissa := body.takeWhile (!isE ·)
  let tail := body.dropWhile (!isE ·)
  let (whole, part) := match Text.splitOnce '.' mantissa with
    | some (w, p) => (w, some p)
    | none => (mantissa, none)
  let power := tail.drop 1
  let partFits := match part with
    | some p => areDigits p
    | none => true
  if !areDigits whole || !partFits || (!tail.isEmpty && !areDigits (dropSign power)) then none
  else
    let n : Int := if negative then -(Text.digitsValue whole : Int) else Text.digitsValue whole
    if part.isNone && tail.isEmpty && leastInt64 ≤ n && n ≤ greatestInt64 then some (.int n)
    else
      let fraction := part.getD []
      let e : Int := Text.digitsValue (dropSign power)
      let e := (if power.head? = some '-' then -e else e) - fraction.length
      let size := Decimal.nearest (Text.digitsValue (whole ++ fraction)) e
      let x := Binary64.ofFloat (if negative then -size else size)
      if x.isFinite then some (.float x) else none

/-- A text between quotes of one kind, with its escaped quotes resolved. -/
def readQuoted (q : Char) (cs : List Char) : Option Json :=
  match cs with
  | a :: b :: r =>
    if a = q ∧ (b :: r).getLast? = some q then
      some (.str (.ofList (Text.replacePair '\\' q q (b :: r).dropLast)))
    else none
  | _ => none

/-- The value of one argument. -/
def coerce (raw : List Char) : Except Failure Json :=
  let cs := Text.trimChars raw
  if cs.head? = some '{' ∨ cs.head? = some '[' then
    match Json.parse (.ofList cs) with
    | .ok v => .ok v
    | .error _ =>
      match Json.parse (.ofList (tighten cs)) with
      | .ok v => .ok v
      | .error e => .error (.mistake (.argument (.ofList cs) e))
  else
    match String.ofList (cs.map Char.toLower) with
    | "true" => .ok (.bool true)
    | "false" => .ok (.bool false)
    | "null" => .ok .null
    | _ => .ok ((readNumber cs <|> readQuoted '"' cs <|> readQuoted '\'' cs).getD (.str (.ofList cs)))

/-! ## Calls -/

def isPathChar (c : Char) : Bool := Text.isAsciiAlnum c || c == '_' || c == '.'

/-- The path and the text between the brackets, if a text is a call. -/
def split? (cs : List Char) : Option (List Char × List Char) := do
  let rest ← Text.after? (root.toList ++ ['.']) (Text.trimChars cs)
  let path := rest.takeWhile isPathChar
  if path.isEmpty then none
  match rest.dropWhile isPathChar with
  | '(' :: body => if body.getLast? = some ')' then some (path, body.dropLast) else none
  | _ => none

/-- The call that a text is, if it is one. -/
def parse (s : String) : Except Failure (Option DataCall) :=
  match split? s.toList with
  | none => .ok none
  | some (path, body) => do
    let args ← (splitArgs body).mapM coerce
    return some ⟨(Text.splitAll '.' path).map String.ofList, args⟩

end DataCall
end PageSpec.Dynamic
