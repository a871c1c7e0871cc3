import PageSpec.Json.Printer
import PageSpec.Text.Find
/-!
The bag of variables and the tokens that stand for them in texts. A token is a name between braces,
possibly followed by dotted segments. Its first name must be a key of the bag, otherwise the token
stays as it is; segments that lead nowhere are written as nothing.
-/
namespace PageSpec

/-- Variables by name, in the order of their first writing. -/
structure Bag where
  values : Fields
  deriving Inhabited

namespace Bag

def empty : Bag := ⟨[]⟩
def set (b : Bag) (key : String) (v : Json) : Bag := ⟨Fields.set b.values key v⟩
def get? (b : Bag) (key : String) : Option Json := Fields.get? b.values key
def has (b : Bag) (key : String) : Bool := (b.get? key).isSome
def size (b : Bag) : Nat := b.values.length
def keys (b : Bag) : List String := Fields.keys b.values

/-- A position in a list: decimal digits, possibly after a plus sign, below `2 ^ 64`. -/
def position? (segment : String) : Option Nat :=
  let ds := match segment.toList with
    | '+' :: r => r
    | r => r
  if ds.isEmpty || !ds.all Text.isDigit then none
  else
    let n := Text.digitsValue ds
    if n < twoTo 64 then some n else none

/-- One segment down from a value. -/
def child? (v : Json) (segment : String) : Option Json :=
  match v with
  | .obj fs => Fields.get? fs segment
  | .arr xs => (position? segment).bind (xs[·]?)
  | _ => none

/-- What a path leads to: `none` if its first name is unknown, `some none` if it leads nowhere. -/
def lookup (b : Bag) : List String → Option (Option Json)
  | [] => none
  | name :: rest => (b.get? name).map fun v => rest.foldl (fun at_ s => at_.bind (child? · s)) (some v)

/-- How a value is written into a text. -/
def render : Option Json → String
  | none => ""
  | some .null => ""
  | some (.str s) => s
  | some v => v.text

end Bag

/-! ## Tokens -/

def isWordChar (c : Char) : Bool := Text.isAsciiAlnum c || c == '_'

/-- The segments of a token after its opening brace, and the text after the closing one. A segment
after a dot may start with a dollar sign or a hyphen. -/
def readToken (cs : List Char) : Option (List (List Char) × List Char) :=
  let name := cs.takeWhile isWordChar
  if name.isEmpty then none
  else
    match cs.dropWhile isWordChar with
    | '}' :: rest => some ([name], rest)
    | '.' :: rest =>
      let (sign, rest) := match rest with
        | '$' :: r => (['$'], r)
        | '-' :: r => (['-'], r)
        | r => ([], r)
      if rest.length < cs.length then
        match readToken rest with
        | some (first :: more, after) => some (name :: (sign ++ first) :: more, after)
        | _ => none
      else none
    | _ => none
termination_by cs.length

/-- A piece of a text with tokens. -/
inductive TextPiece where
  /-- A character that stands for itself. -/
  | char (c : Char)
  | token (path : List String)
  deriving DecidableEq, Repr

/-- The pieces of a text, from the left. A brace that opens no token stands for itself. -/
def textPieces (cs : List Char) : List TextPiece :=
  match cs with
  | [] => []
  | c :: rest =>
    if c = '{' then
      match readToken rest with
      | some (path, after) =>
        if after.length < (c :: rest).length then .token (path.map String.ofList) :: textPieces after
        else .char c :: textPieces rest
      | none => .char c :: textPieces rest
    else .char c :: textPieces rest
termination_by cs.length
decreasing_by all_goals (simp only [List.length_cons] at *; omega)

/-- What a piece is replaced by. -/
def TextPiece.fill (b : Bag) : TextPiece → List Char
  | .char c => [c]
  | .token path =>
    match b.lookup path with
    | some v => (Bag.render v).toList
    | none => '{' :: ((".".intercalate path).toList ++ ['}'])

/-- The text with every token of a known variable replaced; nothing is replaced twice. -/
def interpolate (b : Bag) (s : String) : String :=
  .ofList ((textPieces s.toList).flatMap (TextPiece.fill b))

mutual
/-- Interpolates every text inside a value; names of fields stay. -/
def interpolateValue (b : Bag) : Json → Json
  | .str s => .str (interpolate b s)
  | .arr xs => .arr (interpolateItems b xs)
  | .obj fs => .obj (interpolateFields b fs)
  | v => v
def interpolateItems (b : Bag) : List Json → List Json
  | [] => []
  | x :: xs => interpolateValue b x :: interpolateItems b xs
def interpolateFields (b : Bag) : List (String × Json) → List (String × Json)
  | [] => []
  | (k, v) :: fs => (k, interpolateValue b v) :: interpolateFields b fs
end

end PageSpec
