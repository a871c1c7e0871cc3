import PageSpec.Decimal.Binary64
import PageSpec.Json.Value
import PageSpec.Text.Find
/-!
YAML documents as trees, and the JSON values that they stand for. A plain scalar is null, a truth
value or a number where it reads as one; quoted scalars and keys are always texts.
-/
namespace PageSpec

inductive Yaml where
  | scalar (text : String) (plain : Bool)
  | list (items : List Yaml)
  | map (fields : List (String × Yaml))
  deriving Inhabited

namespace Yaml

/-- What is written by nothing at all. -/
def missing : Yaml := .scalar "" true

/-- Whether the text of a plain scalar reads as null. -/
def readsAsNull (s : String) : Bool := ["", "~", "null", "Null", "NULL"].contains s

/-- Whether a value is a plain scalar that reads as null. -/
def isNull : Yaml → Bool
  | .scalar s plain => plain && readsAsNull s
  | _ => false

def readBool? (s : String) : Option Bool :=
  if ["true", "True", "TRUE"].contains s then some true
  else if ["false", "False", "FALSE"].contains s then some false
  else none

private def digitOf? (base : Nat) (c : Char) : Option Nat :=
  let n :=
    if Text.isDigit c then c.toNat - 48
    else if 'a' ≤ c ∧ c ≤ 'f' then c.toNat - 87
    else if 'A' ≤ c ∧ c ≤ 'F' then c.toNat - 55
    else 99
  if n < base then some n else none

private def digitsIn? (base : Nat) (cs : List Char) : Option Nat :=
  if cs.isEmpty then none
  else cs.foldlM (fun n c => (digitOf? base c).map (n * base + ·)) 0

/-- Decimal digits without a needless zero in front, or digits in a marked base. -/
private def naturalOf? : List Char → Option Nat
  | '0' :: 'x' :: ds => digitsIn? 16 ds
  | '0' :: 'o' :: ds => digitsIn? 8 ds
  | '0' :: 'b' :: ds => digitsIn? 2 ds
  | '0' :: _ :: _ => none
  | ds => digitsIn? 10 ds

def readInt? (s : String) : Option Int :=
  match s.toList with
  | '-' :: ds => (naturalOf? ds).bind fun n => if n ≤ twoTo 63 then some (-(n : Int)) else none
  | '+' :: ds => (naturalOf? ds).bind fun n => if n < twoTo 64 then some (n : Int) else none
  | ds => (naturalOf? ds).bind fun n => if n < twoTo 64 then some (n : Int) else none

/-- An unsigned decimal number with an optional fraction and exponent. Digits alone do not start with
a needless zero. -/
private def decimalOf? (cs : List Char) : Option Float :=
  let whole := cs.takeWhile Text.isDigit
  let rest := cs.dropWhile Text.isDigit
  let (part, rest) := match rest with
    | '.' :: r => (r.takeWhile Text.isDigit, r.dropWhile Text.isDigit)
    | r => ([], r)
  if whole.isEmpty && part.isEmpty then none
  else if cs.all Text.isDigit && whole.length > 1 && whole.head? = some '0' then none
  else
    let exponent : Option Int := match rest with
      | [] => some 0
      | e :: r =>
        if e = 'e' ∨ e = 'E' then
          let (minus, ds) := match r with
            | '-' :: ds => (true, ds)
            | '+' :: ds => (false, ds)
            | ds => (false, ds)
          if ds.isEmpty || !ds.all Text.isDigit then none
          else some (if minus then -(Text.digitsValue ds : Int) else Text.digitsValue ds)
        else none
    exponent.map fun e => Decimal.nearest (Text.digitsValue (whole ++ part)) (e - part.length)

/-- A number; those beyond the reals are null in JSON. -/
def readFloat? (s : String) : Option Json :=
  let unsigned (negative : Bool) (cs : List Char) : Option Json :=
    if [".inf", ".Inf", ".INF"].contains (String.ofList cs) then some .null
    else (decimalOf? cs).bind fun f =>
      if f.isFinite then some (.float (.ofFloat (if negative then -f else f))) else none
  if [".nan", ".NaN", ".NAN"].contains s then some .null
  else match s.toList with
    | '-' :: cs => unsigned true cs
    | '+' :: cs => unsigned false cs
    | cs => unsigned false cs

/-- The value of a plain scalar. -/
def plainValue (s : String) : Json :=
  if readsAsNull s then .null
  else match readBool? s with
    | some b => .bool b
    | none => match readInt? s with
      | some n => .int n
      | none => (readFloat? s).getD (.str s)

mutual
/-- The JSON value of a document. -/
def toJson : Yaml → Json
  | .scalar s plain => if plain then plainValue s else .str s
  | .list xs => .arr (toJsonItems xs)
  | .map fs => .obj (Fields.ofWrites (toJsonFields fs))
def toJsonItems : List Yaml → List Json
  | [] => []
  | x :: xs => toJson x :: toJsonItems xs
def toJsonFields : List (String × Yaml) → List (String × Json)
  | [] => []
  | (k, v) :: fs => (k, toJson v) :: toJsonFields fs
end

end Yaml
end PageSpec
