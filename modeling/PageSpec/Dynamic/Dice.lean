import PageSpec.Decimal.Power
/-!
The random source: the twelve-round ChaCha stream over a key that grows out of a seed. A draw takes
whole 32-bit words off the stream; ranges are drawn without bias by refusing words at their top end.
-/
namespace PageSpec.Dynamic

/-- A stream of words: the key, the number of the next block, and the words left of the last one. -/
structure Dice where
  key : List UInt32
  block : UInt64
  pending : List UInt32
  deriving Repr, Inhabited

namespace Dice

private def rotate (x : UInt32) (n : UInt32) : UInt32 := (x <<< n) ||| (x >>> (32 - n))

private def quarter (s : Array UInt32) (a b c d : Nat) : Array UInt32 :=
  let va := s.getD a 0 + s.getD b 0
  let vd := rotate (s.getD d 0 ^^^ va) 16
  let vc := s.getD c 0 + vd
  let vb := rotate (s.getD b 0 ^^^ vc) 12
  let va := va + vb
  let vd := rotate (vd ^^^ va) 8
  let vc := vc + vd
  let vb := rotate (vb ^^^ vc) 7
  (((s.setIfInBounds a va).setIfInBounds b vb).setIfInBounds c vc).setIfInBounds d vd

/-- Columns, then diagonals. -/
private def doubleRound (s : Array UInt32) : Array UInt32 :=
  let s := quarter s 0 4 8 12
  let s := quarter s 1 5 9 13
  let s := quarter s 2 6 10 14
  let s := quarter s 3 7 11 15
  let s := quarter s 0 5 10 15
  let s := quarter s 1 6 11 12
  let s := quarter s 2 7 8 13
  quarter s 3 4 9 14

private def constants : List UInt32 := [0x61707865, 0x3320646e, 0x79622d32, 0x6b206574]

/-- The sixteen words of one block. -/
def blockWords (key : List UInt32) (n : UInt64) : List UInt32 :=
  let start : Array UInt32 :=
    (constants ++ key ++ [n.toUInt32, (n >>> 32).toUInt32, 0, 0]).toArray
  let mixed := Nat.fold 6 (fun _ _ s => doubleRound s) start
  List.zipWith (· + ·) mixed.toList start.toList

/-- A key word from a state of the seeding sequence. -/
private def keyWord (state : UInt64) : UInt32 :=
  let x := (((state >>> 18) ^^^ state) >>> 27).toUInt32
  let n := (state >>> 59).toUInt32
  (x >>> n) ||| (x <<< ((32 - n) &&& 31))

private def keyWords : Nat → UInt64 → List UInt32
  | 0, _ => []
  | n + 1, state =>
    let next := state * 6364136223846793005 + 11634580027462260723
    keyWord next :: keyWords n next

/-- The stream of a seed. -/
def ofSeed (seed : UInt64) : Dice := ⟨keyWords 8 seed, 0, []⟩

/-- The stream of a key. -/
def ofKey (key : Vector UInt32 8) : Dice := ⟨key.toList, 0, []⟩

end Dice

/-- A computation that draws random words. -/
abbrev Draw := StateM Dice

namespace Draw

/-- The next word. -/
def word : Draw Nat := fun d =>
  match d.pending with
  | w :: ws => (w.toNat, { d with pending := ws })
  | [] =>
    match Dice.blockWords d.key d.block with
    | w :: ws => (w.toNat, { d with block := d.block + 1, pending := ws })
    | [] => (0, d)

/-- Two words, the low one first. -/
def wideWord : Draw Nat := do
  let low ← word
  let high ← word
  return high * twoTo 32 + low

/-- Words of a width, refused while the low half of their product with `size` lies above `zone`. So
many refusals in a row do not happen, and then the lowest value is taken. -/
def refuse (width zone size : Nat) (next : Draw Nat) : Nat → Draw Nat
  | 0 => return 0
  | tries + 1 => do
    let product := (← next) * size
    if product % twoTo width ≤ zone then return product / twoTo width
    else refuse width zone size next tries

/-- The number of refusals after which a draw gives up. -/
def maxTries : Nat := 1000

/-- A number below `size` from words of a width, refusing what does not fill a power of two. -/
def below (width size : Nat) (next : Draw Nat) : Draw Nat :=
  if twoTo width ≤ size then next
  else refuse width (size * twoTo (width - 1 - size.log2) - 1) size next maxTries

/-- A number below `size`, from single words. -/
def below32 (size : Nat) : Draw Nat := below 32 size word
/-- A number below `size`, from pairs of words. -/
def below64 (size : Nat) : Draw Nat := below 64 size wideWord
/-- A number below a small `size`, refusing as few words as possible. -/
def belowSmall (size : Nat) : Draw Nat :=
  refuse 32 (twoTo 32 - 1 - (twoTo 32 - size) % size) size word maxTries

/-- A whole number of 64 bits from `low` to `high`, both included. When that is the whole range the
bits of a word are the number. -/
def between (low high : Int) : Draw Int := do
  let size := (high - low + 1).toNat
  if twoTo 64 ≤ size then return Int.bmod (← wideWord) (twoTo 64)
  else return low + (← below64 size)

/-- One of the items, or the default of an empty list, for which nothing is drawn. -/
def choose {α : Type} (items : List α) (default : α) : Draw α :=
  if items.isEmpty then return default
  else do
    let i ← below32 items.length
    return items.getD i default

/-- A fair coin. -/
def coin : Draw Bool := do return (← wideWord) < twoTo 63

/-- A double in `[0, 1)` with 52 random bits. -/
def unit : Draw Float := do
  let bits := (← wideWord) / twoTo 12
  return Float.ofBits (.ofNat (1023 * twoTo 52 + bits)) - 1.0

/-- A double from `low` up to but not including `high`. -/
def double (low high : Float) : Nat → Draw Float
  | 0 => return low
  | tries + 1 => do
    let r := (← unit) * (high - low) + low
    if r < high then return r else double low high tries

/-- The low bytes of some words. -/
def bytes : Nat → Draw (List Nat)
  | 0 => return []
  | n + 1 => do
    let b := (← word) % 256
    return b :: (← bytes n)

end Draw
end PageSpec.Dynamic
