import PageSpec.Json.Value
import PageSpec.Decimal.Layout
/-!
JSON texts: the compact form, which has no blanks, and the indented form with two blanks a level.
Control characters are escaped, all other characters stand for themselves.
-/
namespace PageSpec.Json

private def hexDigit (n : Nat) : Char := (Nat.toDigits 16 (n % 16)).headD '0'

/-- How one character is written inside a JSON string. -/
def escapeChar (c : Char) : List Char :=
  if c = '"' then ['\\', '"']
  else if c = '\\' then ['\\', '\\']
  else if c = '\n' then ['\\', 'n']
  else if c = '\r' then ['\\', 'r']
  else if c = '\t' then ['\\', 't']
  else if c = '\x08' then ['\\', 'b']
  else if c = '\x0c' then ['\\', 'f']
  else if c.toNat < 0x20 then ['\\', 'u', '0', '0', hexDigit (c.toNat / 16), hexDigit c.toNat]
  else [c]

/-- A JSON string with its quotes. -/
def stringChars (s : String) : List Char := '"' :: (s.toList.flatMap escapeChar ++ ['"'])

mutual
/-- The compact text of a value. -/
def chars : Json → List Char
  | .null => ['n', 'u', 'l', 'l']
  | .bool true => ['t', 'r', 'u', 'e']
  | .bool false => ['f', 'a', 'l', 's', 'e']
  | .int n => (toString n).toList
  | .float x => if x.isFinite then (Decimal.Layout.json.write x).toList else ['n', 'u', 'l', 'l']
  | .str s => stringChars s
  | .arr [] => ['[', ']']
  | .arr (x :: xs) => '[' :: (chars x ++ itemChars xs)
  | .obj [] => ['{', '}']
  | .obj ((k, v) :: fs) => '{' :: (stringChars k ++ ':' :: (chars v ++ fieldChars fs))
/-- The items after the first one, with the closing bracket. -/
def itemChars : List Json → List Char
  | [] => [']']
  | x :: xs => ',' :: (chars x ++ itemChars xs)
/-- The fields after the first one, with the closing brace. -/
def fieldChars : List (String × Json) → List Char
  | [] => ['}']
  | (k, v) :: fs => ',' :: (stringChars k ++ ':' :: (chars v ++ fieldChars fs))
end

/-- The compact text. -/
def text (v : Json) : String := .ofList v.chars

private def newline (level : Nat) : List Char := '\n' :: List.replicate (2 * level) ' '

mutual
/-- The indented text of a value that starts at `level`. -/
def indented (level : Nat) : Json → List Char
  | .arr (x :: xs) =>
    '[' :: (newline (level + 1) ++ indented (level + 1) x ++ indentedItems level xs)
  | .obj ((k, v) :: fs) =>
    '{' :: (newline (level + 1) ++ stringChars k ++ ':' :: ' ' ::
      (indented (level + 1) v ++ indentedFields level fs))
  | v => chars v
def indentedItems (level : Nat) : List Json → List Char
  | [] => newline level ++ [']']
  | x :: xs => ',' :: (newline (level + 1) ++ indented (level + 1) x ++ indentedItems level xs)
def indentedFields (level : Nat) : List (String × Json) → List Char
  | [] => newline level ++ ['}']
  | (k, v) :: fs =>
    ',' :: (newline (level + 1) ++ stringChars k ++ ':' :: ' ' ::
      (indented (level + 1) v ++ indentedFields level fs))
end

/-- The text with one item or field a line. -/
def pretty (v : Json) : String := .ofList (v.indented 0)

end PageSpec.Json
