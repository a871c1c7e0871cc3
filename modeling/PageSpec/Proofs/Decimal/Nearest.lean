import Mathlib.Data.Nat.Log
import PageSpec.Proofs.Decimal.Value
/-!
Whole numbers as doubles. A whole number becomes the nearest multiple of the power of two that leaves it 53 digits, so
that up to `2 ^ 53` it stays what it is, and rounding keeps the order of any two numbers.
-/
namespace PageSpec

namespace Decimal
variable {n m den : Nat}

theorem roundDiv_cases (n den : Nat) : roundDiv n den = n / den ∨ roundDiv n den = n / den + 1 := by
  unfold roundDiv
  simp only
  split_ifs <;> simp

theorem roundDiv_mono (le : n ≤ m) : roundDiv n den ≤ roundDiv m den := by
  have quotients : n / den ≤ m / den := Nat.div_le_div_right le
  have left := Nat.div_add_mod n den
  have right := Nat.div_add_mod m den
  unfold roundDiv
  simp only
  rcases quotients.lt_or_eq with lt | same
  · split_ifs <;> omega
  · rw [same] at left ⊢
    have parts : n % den ≤ m % den := by omega
    split_ifs <;> omega

end Decimal

namespace Binary64
variable {x : Binary64} {n m e : Nat}

/-! ## The bits of a natural number -/

/-- The 53 digits that a natural number is rounded to; they can all be carried. -/
def digits (n : Nat) : Nat :=
  if n.log2 ≤ 52 then n * twoTo (52 - n.log2) else Decimal.roundDiv n (twoTo (n.log2 - 52))

theorem nearestBits_eq (some_ : n ≠ 0) :
    nearestBits n = min ((n.log2 + 1022) * twoTo 52 + digits n) (2047 * twoTo 52) := by
  unfold nearestBits
  rw [if_neg some_]
  rfl

theorem le_digits (some_ : n ≠ 0) : twoTo 52 ≤ digits n := by
  have least := Nat.log2_self_le some_
  unfold digits
  split_ifs with short
  · calc twoTo 52 = 2 ^ n.log2 * 2 ^ (52 - n.log2) := by rw [← pow_add, Nat.add_sub_cancel' short]; rfl
      _ ≤ n * twoTo (52 - n.log2) := Nat.mul_le_mul_right _ least
  · have split_ : 2 ^ n.log2 = twoTo 52 * twoTo (n.log2 - 52) := by
      change _ = 2 ^ 52 * 2 ^ (n.log2 - 52)
      rw [← pow_add, Nat.add_sub_cancel' (by omega)]
    have quotient : twoTo 52 ≤ n / twoTo (n.log2 - 52) :=
      (Nat.le_div_iff_mul_le (Nat.two_pow_pos _)).mpr (split_ ▸ least)
    rcases Decimal.roundDiv_cases n (twoTo (n.log2 - 52)) with same | same <;> omega

theorem digits_le (n : Nat) : digits n ≤ twoTo 53 := by
  have greatest := @Nat.lt_log2_self n
  unfold digits
  split_ifs with short
  · calc n * twoTo (52 - n.log2) ≤ 2 ^ (n.log2 + 1) * 2 ^ (52 - n.log2) := Nat.mul_le_mul_right _ greatest.le
      _ = twoTo 53 := by rw [← pow_add, show n.log2 + 1 + (52 - n.log2) = 53 by omega]; rfl
  · have split_ : 2 ^ (n.log2 + 1) = twoTo 53 * twoTo (n.log2 - 52) := by
      change _ = 2 ^ 53 * 2 ^ (n.log2 - 52)
      rw [← pow_add, show 53 + (n.log2 - 52) = n.log2 + 1 by omega]
    have quotient : n / twoTo (n.log2 - 52) < twoTo 53 :=
      (Nat.div_lt_iff_lt_mul (Nat.two_pow_pos _)).mpr (split_ ▸ greatest)
    rcases Decimal.roundDiv_cases n (twoTo (n.log2 - 52)) with same | same <;> omega

theorem digits_mono (le : n ≤ m) (same : n.log2 = m.log2) : digits n ≤ digits m := by
  unfold digits
  rw [same]
  split_ifs
  · exact Nat.mul_le_mul_right _ le
  · exact Decimal.roundDiv_mono le

/-- Rounding to the nearest double keeps the order of natural numbers. -/
theorem nearestBits_mono (le : n ≤ m) : nearestBits n ≤ nearestBits m := by
  by_cases none_ : n = 0
  · rw [none_]
    exact Nat.zero_le _
  have some_ : m ≠ 0 := by omega
  rw [nearestBits_eq none_, nearestBits_eq some_]
  refine min_le_min_right _ ?_
  have logs : n.log2 ≤ m.log2 := by
    rw [Nat.log2_eq_log_two, Nat.log2_eq_log_two]
    exact Nat.log_mono_right le
  rcases logs.lt_or_eq with lt | same
  · -- A mantissa that is carried is the least one of the next exponent.
    calc (n.log2 + 1022) * twoTo 52 + digits n ≤ (n.log2 + 1022) * twoTo 52 + twoTo 53 :=
          Nat.add_le_add_left (digits_le n) _
      _ = (n.log2 + 1 + 1022) * twoTo 52 + twoTo 52 := by
        rw [show twoTo 53 = twoTo 52 + twoTo 52 from rfl]
        ring
      _ ≤ (m.log2 + 1022) * twoTo 52 + digits m :=
        Nat.add_le_add (Nat.mul_le_mul_right _ (by omega)) (le_digits some_)
  · rw [same]
    exact Nat.add_le_add_left (digits_mono le same) _

theorem nearestBits_le (n : Nat) : nearestBits n ≤ 2047 * twoTo 52 := by
  by_cases none_ : n = 0
  · rw [none_]
    exact Nat.zero_le _
  · rw [nearestBits_eq none_]
    exact min_le_right _ _

theorem nearestBits_pos (some_ : n ≠ 0) : 0 < nearestBits n := by
  rw [nearestBits_eq some_]
  exact lt_min (Nat.add_pos_right _ ((Nat.two_pow_pos 52).trans_le (le_digits some_))) (by decide)

theorem nearestBits_lt (n : Nat) : nearestBits n < twoTo 63 := by
  have positive : 0 < twoTo 52 := Nat.two_pow_pos 52
  calc nearestBits n ≤ 2047 * twoTo 52 := nearestBits_le n
    _ < 2048 * twoTo 52 := Nat.mul_lt_mul_of_pos_right (by decide) positive

/-! ## Whole numbers -/

section
variable {a b : Int}

theorem toNat_ofInt (a : Int) :
    (ofInt a).bits.toNat = if a < 0 then twoTo 63 + nearestBits a.natAbs else nearestBits a.natAbs := by
  have below := nearestBits_lt a.natAbs
  have wide : 2 ^ 64 = 2 * twoTo 63 := rfl
  unfold ofInt
  rw [UInt64.toNat_ofNat', wide]
  apply Nat.mod_eq_of_lt
  split_ifs <;> omega

theorem code_ofInt (a : Int) : (ofInt a).code = nearestBits a.natAbs := by
  have below := nearestBits_lt a.natAbs
  rw [code, toNat_ofInt]
  split_ifs
  · rw [Nat.add_mod_left, Nat.mod_eq_of_lt below]
  · exact Nat.mod_eq_of_lt below

theorem negative_ofInt (a : Int) : (ofInt a).negative = decide (a < 0) := by
  have below := nearestBits_lt a.natAbs
  rw [negative, toNat_ofInt]
  by_cases minus : a < 0
  · rw [if_pos minus, Nat.add_div_left _ (Nat.two_pow_pos 63), Nat.div_eq_of_lt below]
    simpa using minus
  · rw [if_neg minus, Nat.div_eq_of_lt below]
    simpa using minus

theorem rank_ofInt (a : Int) :
    (ofInt a).rank = if a < 0 then -(nearestBits a.natAbs : Int) else nearestBits a.natAbs := by
  change (if (ofInt a).negative then -((ofInt a).code : Int) else (ofInt a).code) = _
  rw [negative_ofInt, code_ofInt]
  simp

theorem isNaN_ofInt (a : Int) : (ofInt a).isNaN = false := by
  have fits := nearestBits_le a.natAbs
  rw [← code_ofInt] at fits
  have parts := Nat.div_add_mod (ofInt a).code (twoTo 52)
  rw [← biased_code, ← fraction_code] at parts
  unfold isNaN
  by_cases top : (ofInt a).biased = 2047
  · have whole : (ofInt a).fraction = 0 := by
      rw [top] at parts
      omega
    simp [whole]
  · simp [top]

/-- Rounding to doubles keeps the order of whole numbers. -/
theorem atMost_ofInt (le : a ≤ b) : (ofInt a).atMost (ofInt b) = true := by
  unfold atMost
  rw [isNaN_ofInt, isNaN_ofInt, rank_ofInt, rank_ofInt]
  simp only [Bool.not_false, Bool.true_and, decide_eq_true_eq]
  split_ifs with minus minus'
  · have back : nearestBits b.natAbs ≤ nearestBits a.natAbs := nearestBits_mono (by omega)
    omega
  · omega
  · omega
  · have on : nearestBits a.natAbs ≤ nearestBits b.natAbs := nearestBits_mono (by omega)
    omega

/-- Whole numbers that are rounded to the same place are rounded to the same double: zero has one sign only. -/
theorem ofInt_eq_of_atMost (le : (ofInt a).atMost (ofInt b) = true) (ge : (ofInt b).atMost (ofInt a) = true) :
    ofInt a = ofInt b := by
  unfold atMost at le ge
  simp only [isNaN_ofInt, rank_ofInt, Bool.not_false, Bool.true_and, decide_eq_true_eq] at le ge
  have there {c : Int} (minus : c < 0) : 0 < nearestBits c.natAbs := nearestBits_pos (by omega)
  unfold ofInt
  split_ifs at le ge ⊢ with minus minus' minus'
  · rw [show nearestBits a.natAbs = nearestBits b.natAbs by omega]
  · have := there minus
    omega
  · have := there minus'
    omega
  · rw [show nearestBits a.natAbs = nearestBits b.natAbs by omega]

end

/-! ## Values -/

theorem units_of_parts {b r : Nat} (same : x.code = b * twoTo 52 + r) (part : r < twoTo 52) (normal : b ≠ 0) :
    x.units = (twoTo 52 + r) * twoTo (b - 1) := by
  have exponent : x.biased = b := by
    rw [biased_code, same, Nat.add_comm, Nat.add_mul_div_right _ _ (Nat.two_pow_pos 52), Nat.div_eq_of_lt part,
      Nat.zero_add]
  have rest : x.fraction = r := by
    rw [fraction_code, same, Nat.add_comm, Nat.add_mul_mod_self_right, Nat.mod_eq_of_lt part]
  unfold units mantissa
  rw [exponent, rest, if_neg normal]

/-- A mantissa may be carried into the exponent. -/
theorem units_of_code (same : x.code = e * twoTo 52 + m) (low : twoTo 52 ≤ m) (high : m ≤ twoTo 53) :
    x.units = m * twoTo e := by
  have double : twoTo 53 = twoTo 52 + twoTo 52 := rfl
  rcases high.lt_or_eq with lt | top
  · obtain ⟨r, rfl⟩ := Nat.exists_eq_add_of_le low
    have parts : x.code = (e + 1) * twoTo 52 + r := by rw [same]; ring
    rw [units_of_parts parts (by omega) (Nat.succ_ne_zero e), Nat.add_sub_cancel]
  · have parts : x.code = (e + 2) * twoTo 52 + 0 := by rw [same, top, double]; ring
    have power : twoTo (e + 2 - 1) = twoTo e + twoTo e := by
      change 2 ^ (e + 1) = 2 ^ e + 2 ^ e
      ring
    rw [units_of_parts parts (Nat.two_pow_pos 52) (by omega), power, top, double]
    ring

/-- A natural number rounded to 53 digits. -/
def rounded (n : Nat) : Nat :=
  if n.log2 ≤ 52 then n else Decimal.roundDiv n (twoTo (n.log2 - 52)) * twoTo (n.log2 - 52)

section
variable {a b : Int}

theorem near_of_le {n : Nat} (fits : n ≤ twoTo 63) : n.log2 ≤ 1022 := by
  by_cases none_ : n = 0
  · rw [none_]
    decide
  · have below : n.log2 < 64 := (Nat.log2_lt none_).mpr (fits.trans_lt (by decide))
    omega

theorem nearestBits_near {n : Nat} (some_ : n ≠ 0) (near : n.log2 ≤ 1022) :
    nearestBits n = (n.log2 + 1022) * twoTo 52 + digits n ∧ nearestBits n ≤ 2046 * twoTo 52 := by
  have fits : (n.log2 + 1022) * twoTo 52 + digits n ≤ 2046 * twoTo 52 :=
    calc (n.log2 + 1022) * twoTo 52 + digits n ≤ (n.log2 + 1022) * twoTo 52 + twoTo 53 :=
          Nat.add_le_add_left (digits_le n) _
      _ = (n.log2 + 1024) * twoTo 52 := by
        rw [show twoTo 53 = 2 * twoTo 52 from rfl]
        ring
      _ ≤ 2046 * twoTo 52 := Nat.mul_le_mul_right _ (by omega)
  rw [nearestBits_eq some_, min_eq_left (fits.trans (Nat.mul_le_mul_right _ (by decide)))]
  exact ⟨rfl, fits⟩

theorem finite_ofInt (near : a.natAbs.log2 ≤ 1022) : (ofInt a).isFinite = true := by
  have low : nearestBits a.natAbs ≤ 2046 * twoTo 52 := by
    by_cases none_ : a.natAbs = 0
    · rw [none_]
      exact Nat.zero_le _
    · exact (nearestBits_near none_ near).2
  have below : (ofInt a).biased ≤ 2046 := by
    rw [biased_code, code_ofInt]
    exact Nat.div_le_of_le_mul (Nat.mul_comm _ _ ▸ low)
  unfold isFinite
  simp only [bne_iff_ne]
  omega

theorem size_ofInt (near : a.natAbs.log2 ≤ 1022) : (ofInt a).size = (rounded a.natAbs : Nat) := by
  have cast (k : Nat) : ((twoTo k : Nat) : ℚ) = 2 ^ (k : ℤ) := by
    rw [zpow_natCast]
    exact Nat.cast_pow 2 k
  by_cases none_ : a.natAbs = 0
  · have zero : a = 0 := by omega
    have units_ : (ofInt a).units = 0 := by rw [zero]; rfl
    rw [size_units, units_, none_]
    simp [rounded]
  have code_ := (code_ofInt a).trans (nearestBits_near none_ near).1
  rw [size_units, units_of_code code_ (le_digits none_) (digits_le _), Nat.cast_mul, cast, mul_assoc,
    ← zpow_add₀ two_ne_zero]
  unfold digits rounded
  split_ifs with short
  · rw [Nat.cast_mul, cast, mul_assoc, ← zpow_add₀ two_ne_zero,
      show ((52 - a.natAbs.log2 : Nat) : ℤ) + (((a.natAbs.log2 + 1022 : Nat) : ℤ) + -1074) = 0 by omega, zpow_zero,
      mul_one]
  · rw [Nat.cast_mul, cast (a.natAbs.log2 - 52),
      show ((a.natAbs.log2 + 1022 : Nat) : ℤ) + -1074 = ((a.natAbs.log2 - 52 : Nat) : ℤ) by omega]

/-- A whole number that is not beyond the doubles becomes one that stands for a whole number. -/
theorem value_ofInt (near : a.natAbs.log2 ≤ 1022) :
    (ofInt a).value = ((if a < 0 then -(rounded a.natAbs : Int) else rounded a.natAbs : Int) : ℚ) := by
  rw [value, negative_ofInt, size_ofInt near]
  by_cases minus : a < 0 <;> simp [minus]

theorem rounded_exact {n : Nat} (small : n ≤ twoTo 53) : rounded n = n := by
  rcases small.lt_or_eq with lt | top
  · have short : n.log2 ≤ 52 := by
      by_cases none_ : n = 0
      · rw [none_]
        decide
      · have below := (Nat.log2_lt none_).mpr lt
        omega
    rw [rounded, if_pos short]
  · rw [top]
    decide +kernel

theorem value_ofInt_exact (small : a.natAbs ≤ twoTo 53) : (ofInt a).value = a := by
  rw [value_ofInt (near_of_le (small.trans (by decide))), rounded_exact small]
  split_ifs <;> · congr 1; omega

/-- Rounding keeps the order of the values, too. -/
theorem value_mono (le : a ≤ b) (near : a.natAbs.log2 ≤ 1022) (near' : b.natAbs.log2 ≤ 1022) :
    (ofInt a).value ≤ (ofInt b).value :=
  (atMost_iff (finite_ofInt near) (finite_ofInt near')).mp (atMost_ofInt le)

end

end Binary64
end PageSpec
