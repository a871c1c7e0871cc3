import PageSpec.Decimal.Binary64
import PageSpec.Decimal.Shortest
import PageSpec.Text.Find
/-!
Written forms of doubles. The digits are always the shortest ones; a `Layout` says where positional
notation is used, whether a whole number keeps a fraction, and how an exponent is signed. A form with a
fixed number of decimal places is exactly rounded.
-/
namespace PageSpec.Decimal

/-- The decisions of a written form. -/
structure Layout where
  /-- Exponents of the first digit that are written without `e`, both ends included. -/
  positional : Option (Int × Int)
  /-- Whole numbers end in `.0`. -/
  keepsFraction : Bool
  /-- A plus sign before exponents that are not negative. -/
  plusSign : Bool
  deriving Repr

/-- JSON texts: `1.0`, `0.00001`, `1e+16`. -/
def Layout.json : Layout := ⟨some (-5, 15), true, true⟩
/-- Prose: always positional, whole numbers bare. -/
def Layout.plain : Layout := ⟨none, false, false⟩
/-- Records of a call: `1.0`, `1e16`, `1e-5`. -/
def Layout.record : Layout := ⟨some (-4, 15), true, false⟩

/-- Digits without their final zeros. -/
def trimZeros (ds : List Char) : List Char := (ds.reverse.dropWhile (· == '0')).reverse

/-- The text of `0.d₁d₂… · 10 ^ (lead + 1)`. -/
def Layout.place (l : Layout) (ds : List Char) (lead : Int) : List Char :=
  let inside := match l.positional with
    | none => true
    | some (low, high) => low ≤ lead && lead ≤ high
  if inside then
    if 0 ≤ lead then
      let n := lead.toNat + 1
      let whole := ds.take n ++ List.replicate (n - ds.length) '0'
      let part := ds.drop n
      if part.isEmpty then whole ++ (if l.keepsFraction then ['.', '0'] else [])
      else whole ++ '.' :: part
    else ['0', '.'] ++ List.replicate ((-lead).toNat - 1) '0' ++ ds
  else
    let head := match ds with
      | [d] => [d]
      | d :: rest => d :: '.' :: rest
      | [] => []
    let sign := if lead < 0 then ['-'] else if l.plusSign then ['+'] else []
    head ++ 'e' :: sign ++ (toString lead.natAbs).toList

/-- The written form of a double. -/
def Layout.write (l : Layout) (x : Binary64) : String :=
  if !x.isFinite then
    if x.fraction != 0 then "NaN" else if x.negative then "-inf" else "inf"
  else
    let sign := if x.negative then ['-'] else []
    if x.isZero then .ofList (sign ++ '0' :: (if l.keepsFraction then ['.', '0'] else []))
    else
      let s := shortest x
      let all := (toString s.digits).toList
      .ofList (sign ++ l.place (trimZeros all) (s.exponent + all.length - 1))

/-! ## Fixed places -/

/-- The absolute value of a finite double times ten to the number of places, rounded. -/
def scaledRound (places : Nat) (x : Binary64) : Nat :=
  if 0 ≤ x.exponent then x.mantissa * twoTo x.exponent.toNat * Nat.pow 10 places
  else roundDiv (x.mantissa * Nat.pow 10 places) (twoTo (-x.exponent).toNat)

/-- A finite double that is not negative, with a fixed number of places. -/
def fixed (places : Nat) (x : Binary64) : String :=
  let n := scaledRound places x
  let one := Nat.pow 10 places
  s!"{n / one}.{Text.padded places (n % one)}"

/-- Milliseconds as seconds in double precision. -/
def seconds (millis : Nat) : Binary64 :=
  .ofFloat (Float.ofNat (millis / 1000) + Float.ofNat (millis % 1000 * 1000000) / 1000000000.0)

end PageSpec.Decimal
