import Mathlib.Data.Rat.Floor
import PageSpec.Decimal.Binary64
/-!
The values of doubles. The bits of a finite double stand for a rational number; comparing a double with a whole
number or with another double, taking its whole part and rounding it up or down, which go by the bits, are what they
are of this number.
-/
namespace PageSpec.Binary64
variable {x y : Binary64} {n : Nat}

/-- The absolute value of a finite double. -/
def size (x : Binary64) : ℚ := x.mantissa * 2 ^ x.exponent

/-- The number that a finite double stands for. -/
def value (x : Binary64) : ℚ := if x.negative then -x.size else x.size

theorem size_nonneg (x : Binary64) : 0 ≤ x.size :=
  mul_nonneg x.mantissa.cast_nonneg (zpow_nonneg (by decide) _)

theorem size_of_whole (whole : 0 ≤ x.exponent) : x.size = (x.mantissa * twoTo x.exponent.toNat : Nat) := by
  obtain ⟨k, same⟩ := Int.eq_ofNat_of_zero_le whole
  simp [size, same]

theorem size_of_part (part : ¬ 0 ≤ x.exponent) : x.size = x.mantissa / (twoTo (-x.exponent).toNat : Nat) := by
  obtain ⟨k, same⟩ := Int.eq_ofNat_of_zero_le (show 0 ≤ -x.exponent by omega)
  have turned : x.exponent = -(k : Int) := by omega
  simp [size, turned, div_eq_mul_inv]

theorem exceeds_iff : x.exceeds n = true ↔ (n : ℚ) < x.value := by
  unfold exceeds value
  cases sign : x.negative with
  | true =>
    have below : -x.size ≤ n := (neg_nonpos.mpr x.size_nonneg).trans n.cast_nonneg
    simpa using below
  | false =>
    by_cases whole : 0 ≤ x.exponent
    · simp only [whole, size_of_whole whole, Nat.cast_lt, decide_eq_true_eq, ↓reduceIte, Bool.not_false,
        Bool.true_and, Bool.false_eq_true]
    · have positive : (0 : ℚ) < (twoTo (-x.exponent).toNat : Nat) := Nat.cast_pos.mpr (Nat.two_pow_pos _)
      have scaled : (n : ℚ) < x.size ↔ n * twoTo (-x.exponent).toNat < x.mantissa := by
        rw [size_of_part whole, lt_div_iff₀ positive, ← Nat.cast_mul, Nat.cast_lt]
      simp only [whole, scaled, decide_eq_true_eq, ↓reduceIte, Bool.not_false, Bool.true_and, Bool.false_eq_true]

/-- The whole part, counted from zero on. -/
theorem truncated_toNat (x : Binary64) : x.truncated.toNat = ⌊x.value⌋.toNat := by
  unfold truncated value
  cases sign : x.negative with
  | true =>
    have below : ⌊-x.size⌋ ≤ 0 := Int.floor_nonpos (neg_nonpos.mpr x.size_nonneg)
    simp only [↓reduceIte]
    omega
  | false =>
    by_cases whole : 0 ≤ x.exponent
    · simp only [whole, size_of_whole whole, Int.floor_natCast, ↓reduceIte, Bool.false_eq_true]
    · simp only [whole, size_of_part whole, Rat.floor_natCast_div_natCast, Int.natCast_ediv, ↓reduceIte,
        Bool.false_eq_true]

/-! ## Rounding to whole numbers -/

theorem value_eq (x : Binary64) : x.value = x.signed * 2 ^ x.exponent := by
  unfold value signed size
  cases x.negative <;> simp

theorem value_of_whole (whole : 0 ≤ x.exponent) : x.value = (x.signed * (twoTo x.exponent.toNat : Nat) : ℤ) := by
  obtain ⟨k, same⟩ := Int.eq_ofNat_of_zero_le whole
  simp [value_eq, same]

theorem value_of_part (part : ¬ 0 ≤ x.exponent) : x.value = x.signed / (twoTo (-x.exponent).toNat : Nat) := by
  obtain ⟨k, same⟩ := Int.eq_ofNat_of_zero_le (show 0 ≤ -x.exponent by omega)
  have turned : x.exponent = -(k : Int) := by omega
  simp [value_eq, turned, div_eq_mul_inv]

theorem floor_eq (x : Binary64) : x.floor = ⌊x.value⌋ := by
  unfold floor
  by_cases whole : 0 ≤ x.exponent
  · rw [if_pos whole, value_of_whole whole, Int.floor_intCast]
  · rw [if_neg whole, value_of_part whole, Rat.floor_intCast_div_natCast]

theorem ceil_eq (x : Binary64) : x.ceil = ⌈x.value⌉ := by
  unfold ceil
  by_cases whole : 0 ≤ x.exponent
  · rw [if_pos whole, value_of_whole whole, Int.ceil_intCast]
  · -- Rounding up is rounding the opposite down.
    have opposite : -x.value = ((-x.signed : ℤ) : ℚ) / (twoTo (-x.exponent).toNat : Nat) := by
      rw [value_of_part whole, Int.cast_neg, neg_div]
    rw [if_neg whole, ← neg_neg x.value, Int.ceil_neg, opposite, Rat.floor_intCast_div_natCast]

/-- Rounded to 64 bits, every double stays within their range, also one that is no number. -/
theorem round64_mem (x : Binary64) : (leastInt64 ≤ x.floor64 ∧ x.floor64 ≤ greatestInt64) ∧
    leastInt64 ≤ x.ceil64 ∧ x.ceil64 ≤ greatestInt64 := by
  have cut (whole : Int) : leastInt64 ≤ (if x.isFinite then max leastInt64 (min greatestInt64 whole)
      else if x.isNaN then 0 else if x.negative then leastInt64 else greatestInt64) ∧
      (if x.isFinite then max leastInt64 (min greatestInt64 whole)
        else if x.isNaN then 0 else if x.negative then leastInt64 else greatestInt64) ≤ greatestInt64 := by
    unfold leastInt64 greatestInt64
    split_ifs <;> omega
  exact ⟨cut x.floor, cut x.ceil⟩

theorem floor64_eq (finite : x.isFinite = true) : x.floor64 = max leastInt64 (min greatestInt64 ⌊x.value⌋) := by
  rw [← floor_eq]
  exact if_pos finite

theorem ceil64_eq (finite : x.isFinite = true) : x.ceil64 = max leastInt64 (min greatestInt64 ⌈x.value⌉) := by
  rw [← ceil_eq]
  exact if_pos finite

/-! ## Order -/

/-- The absolute value of a finite double, counted in the least one. -/
def units (x : Binary64) : Nat := x.mantissa * twoTo (x.biased - 1)

/-- The bits of a double less its sign. -/
def code (x : Binary64) : Nat := x.bits.toNat % twoTo 63

theorem size_units (x : Binary64) : x.size = x.units * 2 ^ (-1074 : ℤ) := by
  have turned : x.exponent = ((x.biased - 1 : Nat) : ℤ) + -1074 := by
    unfold exponent
    split <;> omega
  have power : ((twoTo (x.biased - 1) : Nat) : ℚ) = 2 ^ (x.biased - 1) := Nat.cast_pow 2 _
  rw [size, units, turned, zpow_add₀ two_ne_zero, zpow_natCast, Nat.cast_mul, power, mul_assoc]

theorem biased_code (x : Binary64) : x.biased = x.code / twoTo 52 := by
  have half : twoTo 63 = twoTo 52 * 2048 := rfl
  rw [biased, code, half, Nat.mod_mul_right_div_self]

theorem fraction_code (x : Binary64) : x.fraction = x.code % twoTo 52 := by
  have half : twoTo 63 = twoTo 52 * 2048 := rfl
  rw [fraction, code, half, Nat.mod_mul_right_mod]

theorem fraction_lt (x : Binary64) : x.fraction < twoTo 52 := Nat.mod_lt _ (Nat.two_pow_pos 52)

/-- The doubles of one exponent lie below those of the next one. -/
theorem units_below (x : Binary64) : x.units < twoTo 52 * twoTo x.biased := by
  have part := x.fraction_lt
  unfold units mantissa
  by_cases least : x.biased = 0
  · rw [if_pos least, least]
    exact Nat.mul_lt_mul_of_pos_right part (Nat.two_pow_pos 0)
  · obtain ⟨b, same⟩ := Nat.exists_eq_succ_of_ne_zero least
    have double : twoTo 52 * twoTo (b + 1) = (twoTo 52 + twoTo 52) * twoTo b := by
      change twoTo 52 * 2 ^ (b + 1) = _ * 2 ^ b
      ring
    rw [if_neg least, same, Nat.succ_sub_one, Nat.succ_eq_add_one, double]
    exact Nat.mul_lt_mul_of_pos_right (Nat.add_lt_add_left part _) (Nat.two_pow_pos b)

theorem units_least (normal : x.biased ≠ 0) : twoTo 52 * twoTo (x.biased - 1) ≤ x.units := by
  unfold units mantissa
  rw [if_neg normal]
  exact Nat.mul_le_mul_right _ (Nat.le_add_right _ _)

theorem units_lt (lt : x.code < y.code) : x.units < y.units := by
  have order : x.biased ≤ y.biased := by
    rw [biased_code, biased_code]
    exact Nat.div_le_div_right lt.le
  rcases order.lt_or_eq with below | same
  · calc x.units < twoTo 52 * twoTo x.biased := x.units_below
      _ ≤ twoTo 52 * twoTo (y.biased - 1) :=
        Nat.mul_le_mul_left _ (Nat.pow_le_pow_right two_pos (Nat.le_sub_one_of_lt below))
      _ ≤ y.units := units_least (Nat.ne_zero_of_lt below)
  · have part : x.fraction < y.fraction := by
      have left := Nat.div_add_mod x.code (twoTo 52)
      have right := Nat.div_add_mod y.code (twoTo 52)
      rw [← biased_code, ← fraction_code] at left right
      rw [same] at left
      omega
    unfold units mantissa
    rw [same]
    refine Nat.mul_lt_mul_of_pos_right ?_ (Nat.two_pow_pos _)
    split
    · exact part
    · exact Nat.add_lt_add_left part _

theorem units_le_iff : x.units ≤ y.units ↔ x.code ≤ y.code := by
  refine ⟨fun le => ?_, fun le => ?_⟩
  · by_contra lt
    exact absurd (units_lt (not_le.mp lt)) (not_lt.mpr le)
  · rcases le.lt_or_eq with lt | same
    · exact (units_lt lt).le
    · unfold units mantissa
      rw [biased_code, biased_code, fraction_code, fraction_code, same]

theorem size_le_iff : x.size ≤ y.size ↔ x.code ≤ y.code := by
  have positive : (0 : ℚ) < 2 ^ (-1074 : ℤ) := zpow_pos two_pos _
  rw [size_units, size_units, mul_le_mul_iff_left₀ positive, Nat.cast_le, units_le_iff]

theorem size_nonpos_iff : x.size ≤ 0 ↔ x.code = 0 := by
  have zero : (⟨0⟩ : Binary64).size = 0 := by rw [size_units, show (⟨0⟩ : Binary64).units = 0 from rfl]; simp
  rw [← zero, size_le_iff]
  exact Nat.le_zero

/-- Comparing the places of two finite doubles compares their values. -/
theorem atMost_iff (finite : x.isFinite = true) (finite' : y.isFinite = true) :
    x.atMost y = true ↔ x.value ≤ y.value := by
  have number {z : Binary64} (finite : z.isFinite = true) : z.isNaN = false := by
    unfold isFinite at finite
    unfold isNaN
    simp_all
  have ranked : x.atMost y = true ↔ x.rank ≤ y.rank := by
    unfold atMost
    simp [number finite, number finite']
  have rank_eq (z : Binary64) : z.rank = if z.negative then -(z.code : ℤ) else z.code := rfl
  rw [ranked, rank_eq, rank_eq, value, value]
  cases x.negative <;> cases y.negative <;> simp only [Bool.false_eq_true, ↓reduceIte]
  · rw [size_le_iff, Nat.cast_le]
  · -- Only a zero is at most a number that is not positive.
    have zero : x.size ≤ -y.size ↔ x.size ≤ 0 ∧ y.size ≤ 0 := by
      constructor
      · intro le
        constructor <;> linarith [x.size_nonneg, y.size_nonneg]
      · rintro ⟨first, second⟩
        linarith
    rw [zero, size_nonpos_iff, size_nonpos_iff]
    omega
  · have below : -x.size ≤ y.size := (neg_nonpos.mpr x.size_nonneg).trans y.size_nonneg
    simp only [below, iff_true]
    omega
  · rw [neg_le_neg_iff, neg_le_neg_iff, size_le_iff, Nat.cast_le]

end PageSpec.Binary64
