import PageSpec.Decimal.Power
/-!
Double-precision numbers, held by their 64 bits: a sign, eleven bits of exponent and 52 bits of
fraction. Two numbers are the same value here when their bits are; arithmetic goes through `Float`,
and what leads from whole numbers to doubles and back goes by the bits. Decimal digits are read exactly
rounded, or by scaling a 64-bit significand, which rounds once for the significand and once for each
scaling step.
-/
namespace PageSpec

/-- A quotient rounded to the nearest whole number; a tie goes to the even neighbour. -/
def Decimal.roundDiv (num den : Nat) : Nat :=
  let q := num / den
  let r := num % den
  if 2 * r < den then q else if den < 2 * r then q + 1 else if q % 2 = 0 then q else q + 1

/-- A double-precision number, by its bits. -/
structure Binary64 where
  bits : UInt64
  deriving DecidableEq, Repr, Inhabited

namespace Binary64

def ofFloat (x : Float) : Binary64 := ⟨x.toBits⟩
def toFloat (x : Binary64) : Float := .ofBits x.bits

def negative (x : Binary64) : Bool := x.bits.toNat / twoTo 63 == 1
/-- The biased exponent. -/
def biased (x : Binary64) : Nat := x.bits.toNat / twoTo 52 % 2048
def fraction (x : Binary64) : Nat := x.bits.toNat % twoTo 52
/-- Neither an infinity nor a not-a-number. -/
def isFinite (x : Binary64) : Bool := x.biased != 2047
def isNaN (x : Binary64) : Bool := x.biased == 2047 && x.fraction != 0
def isZero (x : Binary64) : Bool := x.biased == 0 && x.fraction == 0
/-- `m` in the absolute value `m · 2 ^ q`. -/
def mantissa (x : Binary64) : Nat := if x.biased = 0 then x.fraction else twoTo 52 + x.fraction
/-- `q` in the absolute value `m · 2 ^ q`. -/
def exponent (x : Binary64) : Int := (if x.biased = 0 then 1 else (x.biased : Int)) - 1075

/-- The bits of the double nearest to a natural number; of two that are equally near the even one
counts, and beyond the greatest double the infinity. -/
def nearestBits (n : Nat) : Nat :=
  if n = 0 then 0
  else
    -- A mantissa that is rounded up to the next power of two carries into the exponent.
    let mantissa :=
      if n.log2 ≤ 52 then n * twoTo (52 - n.log2) else Decimal.roundDiv n (twoTo (n.log2 - 52))
    min ((n.log2 + 1022) * twoTo 52 + mantissa) (2047 * twoTo 52)

/-- Whole numbers, rounded to the nearest double. -/
def ofInt (n : Int) : Binary64 :=
  ⟨.ofNat (if n < 0 then twoTo 63 + nearestBits n.natAbs else nearestBits n.natAbs)⟩

/-- The place of a number among the others, by its bits; the two zeros share theirs. -/
def rank (x : Binary64) : Int :=
  let size : Int := (x.bits.toNat % twoTo 63 : Nat)
  if x.negative then -size else size

/-- Whether a number is at most another one; what is not a number never is. -/
def atMost (x y : Binary64) : Bool := !x.isNaN && !y.isNaN && x.rank ≤ y.rank

/-- `m` with its sign in the value `m · 2 ^ q`. -/
def signed (x : Binary64) : Int := if x.negative then -(x.mantissa : Int) else x.mantissa

/-- The greatest whole number that a finite number does not lie below. -/
def floor (x : Binary64) : Int :=
  if 0 ≤ x.exponent then x.signed * (twoTo x.exponent.toNat : Nat)
  else x.signed / (twoTo (-x.exponent).toNat : Nat)

/-- The least whole number that a finite number does not lie above. -/
def ceil (x : Binary64) : Int :=
  if 0 ≤ x.exponent then x.signed * (twoTo x.exponent.toNat : Nat)
  else -(-x.signed / (twoTo (-x.exponent).toNat : Nat))

/-- What a double was rounded to, cut to 64 bits with a sign. -/
private def cut64 (x : Binary64) (whole : Int) : Int :=
  if x.isFinite then max leastInt64 (min greatestInt64 whole)
  else if x.isNaN then 0
  else if x.negative then leastInt64 else greatestInt64

/-- A double rounded down to a whole number of 64 bits. -/
def floor64 (x : Binary64) : Int := x.cut64 x.floor
/-- A double rounded up to a whole number of 64 bits. -/
def ceil64 (x : Binary64) : Int := x.cut64 x.ceil

/-- The whole part of a finite number, towards zero. -/
def truncated (x : Binary64) : Int :=
  let size : Nat :=
    if 0 ≤ x.exponent then x.mantissa * twoTo x.exponent.toNat
    else x.mantissa / twoTo (-x.exponent).toNat
  if x.negative then -(size : Int) else size

/-- Whether a finite number is greater than a natural number. -/
def exceeds (x : Binary64) (n : Nat) : Bool :=
  !x.negative &&
    if 0 ≤ x.exponent then n < x.mantissa * twoTo x.exponent.toNat
    else n * twoTo (-x.exponent).toNat < x.mantissa

end Binary64
end PageSpec

/-! ## Decimal digits -/

namespace PageSpec.Decimal

/-- The double nearest to `digits · 10 ^ exponent`; infinite beyond the range. -/
def nearest (digits : Nat) (exponent : Int) : Float :=
  let size : Int := (toString digits).length + exponent
  if digits = 0 then 0.0
  else if 400 < size then 1.0 / 0.0
  else if size < -400 then 0.0
  else Float.ofScientific digits (exponent < 0) exponent.natAbs

/-- A power of ten as a double. -/
def power (n : Nat) : Float := Float.ofScientific 1 false n

private def scaleBy : Nat → Float → Int → Option Float
  | 0, f, _ => some f
  | fuel + 1, f, e =>
    if e.natAbs ≤ 308 then
      if 0 ≤ e then
        let r := f * power e.natAbs
        if r.isInf then none else some r
      else some (f / power e.natAbs)
    else if f == 0.0 then some f
    else if 0 ≤ e then none
    else scaleBy fuel (f / power 308) (e + 308)

/-- A significand below `2 ^ 64` times a power of ten, scaled in steps of at most `10 ^ 308`;
`none` when that leaves the range. Four steps bring every significand to zero. -/
def scaled (significand : Nat) (exponent : Int) : Option Float :=
  scaleBy 4 (Float.ofNat significand) exponent

end PageSpec.Decimal
