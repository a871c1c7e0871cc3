import PageSpec.Decimal.Binary64
/-!
The fewest decimal digits that read back to a given double. The reals that round to it form an
interval; the first decimal grid, from one digit upwards, with a point in that interval gives the
digits, the nearer of two points wins, and of two equally near ones the even one.
-/
namespace PageSpec.Decimal

/-- A positive value `digits · 10 ^ exponent`. -/
structure Scaled where
  digits : Nat
  exponent : Int
  deriving DecidableEq, Repr

/-- A double and the ends of its rounding interval, all over one denominator. -/
structure Interval where
  low : Nat
  value : Nat
  high : Nat
  denominator : Nat
  closed : Bool
  deriving Repr

/-- The rounding interval of a positive double: half a unit on both sides, a quarter below a power
of two, and the ends belong to it when the mantissa is even. -/
def Interval.of (x : Binary64) : Interval :=
  let m := 4 * x.mantissa
  let q := x.exponent - 2
  let below := if x.fraction = 0 ∧ 1 < x.biased then 1 else 2
  let scale := if 0 ≤ q then twoTo q.toNat else 1
  { low := (m - below) * scale, value := m * scale, high := (m + 2) * scale
    denominator := if 0 ≤ q then 1 else twoTo (-q).toNat, closed := x.mantissa % 2 == 0 }

/-- Numerator and denominator of `10 ^ k`. -/
def tenTo (k : Int) : Nat × Nat := if 0 ≤ k then (Nat.pow 10 k.toNat, 1) else (1, Nat.pow 10 (-k).toNat)

/-- Raises `k` while a tenfold power still lies at or below the value. -/
def raise (i : Interval) : Nat → Int → Int
  | 0, k => k
  | fuel + 1, k =>
    let (n, d) := tenTo (k + 1)
    if n * i.denominator ≤ i.value * d then raise i fuel (k + 1) else k

/-- The decimal exponent of the value's first digit. -/
def leadingExponent (i : Interval) : Int :=
  raise i 4 (((i.value.log2 : Int) - (i.denominator.log2 : Int)) * 30103 / 100000 - 2)

/-- The point of the grid with `n` digits that reads back, if there is one. -/
def gridPoint (i : Interval) (lead : Int) (n : Nat) : Option Scaled :=
  let k := lead - n + 1
  let (up, down) := tenTo k
  let unit := up * i.denominator
  let low := i.low * down
  let value := i.value * down
  let high := i.high * down
  let c := value / unit
  let hit (p : Nat) : Bool :=
    if i.closed then low ≤ p * unit && p * unit ≤ high else low < p * unit && p * unit < high
  match hit c, hit (c + 1) with
  | true, true =>
    let under := value - c * unit
    let above := (c + 1) * unit - value
    some ⟨if under < above ∨ (under = above ∧ c % 2 = 0) then c else c + 1, k⟩
  | true, false => some ⟨c, k⟩
  | false, true => some ⟨c + 1, k⟩
  | false, false => none

/-- The shortest decimal of a positive double. -/
def shortest (x : Binary64) : Scaled :=
  let i := Interval.of x
  let lead := leadingExponent i
  ((List.range 17).findSome? fun n => gridPoint i lead (n + 1)).getD ⟨0, 0⟩

end PageSpec.Decimal
