/-!
Powers of two, and the bounds of whole numbers with a sign in 64 bits.
-/
namespace PageSpec

/-- A power of two: how many numbers a word of so many bits tells apart. -/
abbrev twoTo (bits : Nat) : Nat := Nat.pow 2 bits

/-- The least whole number of 64 bits with a sign. -/
abbrev leastInt64 : Int := -9223372036854775808
/-- The greatest whole number of 64 bits with a sign. -/
abbrev greatestInt64 : Int := 9223372036854775807

end PageSpec
