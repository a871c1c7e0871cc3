import PageSpec.Decimal.Binary64
import PageSpec.Json.Value
import PageSpec.Text.Find
/-!
Reading JSON texts. A text is one value with blanks around it, nested at most 127 levels deep. When
a field is written twice the last value stands at the place of the first. Integers of 64 bits stay
integers; every other number is a double.
-/
namespace PageSpec.Json

/-- Why a text is no JSON. -/
inductive SyntaxFault where
  | ended | unexpected | number | outOfRange | escape | control | tooDeep | trailing
  deriving DecidableEq, Repr

def SyntaxFault.message : SyntaxFault → String
  | .ended => "unexpected end of text"
  | .unexpected => "unexpected character"
  | .number => "invalid number"
  | .outOfRange => "number out of range"
  | .escape => "invalid escape"
  | .control => "control character inside a string"
  | .tooDeep => "nesting is too deep"
  | .trailing => "trailing characters"

/-- A fault with the place where it was noticed. -/
structure SyntaxError where
  fault : SyntaxFault
  line : Nat
  column : Nat
  deriving DecidableEq, Repr

def SyntaxError.message (e : SyntaxError) : String :=
  s!"{e.fault.message} at line {e.line} column {e.column}"

namespace Reader

/-- A fault and what was left of the text when it arose. -/
abbrev Stop := SyntaxFault × List Char

def isSpace (c : Char) : Bool := c = ' ' || c = '\n' || c = '\t' || c = '\r'
def skip (cs : List Char) : List Char := cs.dropWhile isSpace

def hexValue? (c : Char) : Option Nat :=
  if '0' ≤ c ∧ c ≤ '9' then some (c.toNat - 48)
  else if 'a' ≤ c ∧ c ≤ 'f' then some (c.toNat - 87)
  else if 'A' ≤ c ∧ c ≤ 'F' then some (c.toNat - 55)
  else none

def hexQuad? (a b c d : Char) : Option Nat := do
  some ((((← hexValue? a) * 16 + (← hexValue? b)) * 16 + (← hexValue? c)) * 16 + (← hexValue? d))

/-- The character that a short escape names. -/
def shortEscape? : Char → Option Char
  | '"' => some '"'
  | '\\' => some '\\'
  | '/' => some '/'
  | 'b' => some '\x08'
  | 'f' => some '\x0c'
  | 'n' => some '\n'
  | 'r' => some '\r'
  | 't' => some '\t'
  | _ => none

/-- The rest of a string after its opening quote. -/
def stringRest : List Char → Except Stop (List Char × List Char)
  | [] => .error (.ended, [])
  | '"' :: cs => .ok ([], cs)
  | '\\' :: 'u' :: a :: b :: c :: d :: cs =>
    match hexQuad? a b c d with
    | none => .error (.escape, cs)
    | some u =>
      if 0xD800 ≤ u ∧ u < 0xDC00 then
        match cs with
        | '\\' :: 'u' :: e :: f :: g :: h :: cs' =>
          match hexQuad? e f g h with
          | none => .error (.escape, cs')
          | some l =>
            if 0xDC00 ≤ l ∧ l < 0xE000 then
              (stringRest cs').map fun (s, r) =>
                (.ofNat (0x10000 + (u - 0xD800) * 0x400 + (l - 0xDC00)) :: s, r)
            else .error (.escape, cs')
        | _ => .error (.escape, cs)
      else if 0xDC00 ≤ u ∧ u < 0xE000 then .error (.escape, cs)
      else (stringRest cs).map fun (s, r) => (.ofNat u :: s, r)
  | '\\' :: e :: cs =>
    match shortEscape? e with
    | some c => (stringRest cs).map fun (s, r) => (c :: s, r)
    | none => .error (.escape, cs)
  | c :: cs =>
    if c = '\\' then .error (.ended, cs)
    else if c.toNat < 0x20 then .error (.control, cs)
    else (stringRest cs).map fun (s, r) => (c :: s, r)

/-- Extends a significand by digits while it stays below `2 ^ 64`; also counts the digits left. -/
def extend (sig : Nat) : List Char → Nat × Nat
  | [] => (sig, 0)
  | d :: ds =>
    let next := sig * 10 + (d.toNat - 48)
    if next < twoTo 64 then extend next ds else (sig, ds.length + 1)

/-- A double from a significand, with its sign. -/
def double (negative : Bool) (sig : Nat) (e : Int) (rest : List Char) : Except Stop (Json × List Char) :=
  match Decimal.scaled sig e with
  | some f => .ok (.float (.ofFloat (if negative then -f else f)), rest)
  | none => .error (.outOfRange, rest)

/-- An exponent after its `e`; `shift` is the exponent that the digits before carry. -/
def exponentRest (negative : Bool) (sig : Nat) (shift : Int) (cs : List Char) : Except Stop (Json × List Char) :=
  let (minus, ds) := match cs with
    | '-' :: r => (true, r)
    | '+' :: r => (false, r)
    | r => (false, r)
  let digits := ds.takeWhile Text.isDigit
  let rest := ds.dropWhile Text.isDigit
  if digits.isEmpty then .error (if ds.isEmpty then .ended else .number, rest)
  else
    let e : Int := Text.digitsValue digits
    if twoTo 31 ≤ e then
      if sig = 0 ∨ minus then .ok (.float (.ofFloat (if negative then -0.0 else 0.0)), rest)
      else .error (.outOfRange, rest)
    else double negative sig (if minus then shift - e else shift + e) rest

/-- A fraction after its point. -/
def fractionRest (negative : Bool) (sig dropped : Nat) (cs : List Char) : Except Stop (Json × List Char) :=
  let digits := cs.takeWhile Text.isDigit
  let rest := cs.dropWhile Text.isDigit
  if digits.isEmpty then .error (if cs.isEmpty then .ended else .number, rest)
  else
    let (sig', unread) := extend sig digits
    let shift : Int := dropped - (digits.length - unread : Nat)
    match rest with
    | c :: r => if c = 'e' || c = 'E' then exponentRest negative sig' shift r
      else double negative sig' shift rest
    | [] => double negative sig' shift rest

/-- A number after its sign. -/
def numberRest (negative : Bool) (cs : List Char) : Except Stop (Json × List Char) :=
  let digits := cs.takeWhile Text.isDigit
  let rest := cs.dropWhile Text.isDigit
  match digits with
  | [] => .error (if cs.isEmpty then .ended else .number, rest)
  | d :: more =>
    if d = '0' ∧ ¬ more.isEmpty then .error (.number, rest)
    else
      let (sig, dropped) := extend 0 digits
      match rest with
      | '.' :: r => fractionRest negative sig dropped r
      | 'e' :: r => exponentRest negative sig dropped r
      | 'E' :: r => exponentRest negative sig dropped r
      | _ =>
        if dropped ≠ 0 then double negative sig dropped rest
        else if !negative then .ok (.int sig, rest)
        else if sig = 0 ∨ twoTo 63 < sig then .ok (.float (.ofFloat (-(Float.ofNat sig))), rest)
        else .ok (.int (-sig), rest)

/-- A fixed word. -/
def word (w : List Char) (v : Json) (cs : List Char) : Except Stop (Json × List Char) :=
  match Text.after? w cs with
  | some rest => .ok (v, rest)
  | none => .error (.unexpected, cs)

mutual
/-- A value at the start of the text, with at most `depth` levels of nesting. -/
def value : Nat → Nat → List Char → Except Stop (Json × List Char)
  | 0, _, cs => .error (.ended, cs)
  | fuel + 1, depth, cs =>
    match skip cs with
    | [] => .error (.ended, [])
    | 'n' :: r => word ['u', 'l', 'l'] .null r
    | 't' :: r => word ['r', 'u', 'e'] (.bool true) r
    | 'f' :: r => word ['a', 'l', 's', 'e'] (.bool false) r
    | '"' :: r => (stringRest r).map fun (s, r') => (.str (.ofList s), r')
    | '-' :: r => numberRest true r
    | '[' :: r =>
      match depth with
      | 0 => .error (.tooDeep, r)
      | d + 1 =>
        match skip r with
        | ']' :: r' => .ok (.arr [], r')
        | r' => (items fuel d r').map fun (xs, r'') => (.arr xs, r'')
    | '{' :: r =>
      match depth with
      | 0 => .error (.tooDeep, r)
      | d + 1 =>
        match skip r with
        | '}' :: r' => .ok (.obj [], r')
        | r' => (fields fuel d r').map fun (fs, r'') => (.obj (Fields.ofWrites fs), r'')
    | c :: r => if Text.isDigit c then numberRest false (c :: r) else .error (.unexpected, c :: r)
/-- One item or more, up to the closing bracket. -/
def items : Nat → Nat → List Char → Except Stop (List Json × List Char)
  | 0, _, cs => .error (.ended, cs)
  | fuel + 1, depth, cs => do
    let (x, r) ← value fuel depth cs
    match skip r with
    | ',' :: r' =>
      let (xs, r'') ← items fuel depth r'
      .ok (x :: xs, r'')
    | ']' :: r' => .ok ([x], r')
    | r' => .error (if r'.isEmpty then .ended else .unexpected, r')
/-- One field or more, up to the closing brace. -/
def fields : Nat → Nat → List Char → Except Stop (List (String × Json) × List Char)
  | 0, _, cs => .error (.ended, cs)
  | fuel + 1, depth, cs =>
    match skip cs with
    | '"' :: r => do
      let (k, r) ← stringRest r
      match skip r with
      | ':' :: r =>
        let (v, r) ← value fuel depth r
        match skip r with
        | ',' :: r' =>
          let (fs, r'') ← fields fuel depth r'
          .ok ((.ofList k, v) :: fs, r'')
        | '}' :: r' => .ok ([(.ofList k, v)], r')
        | r' => .error (if r'.isEmpty then .ended else .unexpected, r')
      | r => .error (if r.isEmpty then .ended else .unexpected, r)
    | r => .error (if r.isEmpty then .ended else .unexpected, r)
end

/-- Nesting beyond this is refused. -/
def maxDepth : Nat := 127

/-- Nothing but blanks stands around what is read. -/
def whole {α : Type} (item : Nat → Nat → List Char → Except Stop (α × List Char)) (cs : List Char) :
    Except Stop α := do
  let (a, rest) ← item (2 * cs.length + 2) maxDepth cs
  let rest := skip rest
  if rest.isEmpty then .ok a else .error (.trailing, rest)

/-- Line and column, both from 1, of the character before the rest. -/
def place (all rest : List Char) : Nat × Nat :=
  let done := all.take (all.length - rest.length)
  let current := done.reverse.takeWhile (· ≠ '\n')
  (done.count '\n' + 1, current.length)

end Reader

/-- What a text writes for a reader. -/
def read {α : Type} (item : Nat → Nat → List Char → Except Reader.Stop (α × List Char)) (s : String) :
    Except SyntaxError α :=
  match Reader.whole item s.toList with
  | .ok a => .ok a
  | .error (fault, rest) =>
    let (line, column) := Reader.place s.toList rest
    .error ⟨fault, line, column⟩

/-- The value that a JSON text writes. -/
def parse (s : String) : Except SyntaxError Json := read Reader.value s

end PageSpec.Json
