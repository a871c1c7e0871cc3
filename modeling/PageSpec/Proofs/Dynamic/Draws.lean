import Mathlib.Tactic.Ring
import PageSpec.Dynamic.Dice
/-!
Drawn numbers. Whatever words the random source has, a number drawn from a range lies in it: refusing words
changes which number is drawn, but not where it lies. And every number of the range is drawn, from some words.
-/
namespace PageSpec.Dynamic.Draw
variable {α β : Type}

theorem bind_apply (a : Draw α) (f : α → Draw β) (d : Dice) : (a >>= f) d = f (a d).1 (a d).2 := rfl
theorem pure_apply (v : α) (d : Dice) : (pure v : Draw α) d = (v, d) := rfl

/-- Draws numbers below a bound, from every state of the source. -/
def Below (bound : Nat) (next : Draw Nat) : Prop := ∀ d, (next d).1 < bound

theorem word_below : Below (twoTo 32) word := by
  intro d
  unfold word
  split
  · exact UInt32.toNat_lt _
  · split
    · exact UInt32.toNat_lt _
    · exact Nat.two_pow_pos 32

theorem wideWord_below : Below (twoTo 64) wideWord := by
  intro d
  have low := word_below d
  have high := word_below (word d).2
  have size : twoTo 32 = 4294967296 := rfl
  have wide : twoTo 64 = 18446744073709551616 := rfl
  unfold wideWord
  rw [bind_apply, bind_apply, pure_apply]
  dsimp only
  rw [size] at low high ⊢
  omega

theorem refuse_below {width zone size : Nat} {next : Draw Nat} (words : Below (twoTo width) next)
    (nonempty : 0 < size) (tries : Nat) : Below size (refuse width zone size next tries) := by
  induction tries with
  | zero =>
    intro d
    exact nonempty
  | succ tries ih =>
    intro d
    unfold refuse
    rw [bind_apply]
    split
    · rw [pure_apply]
      apply Nat.div_lt_of_lt_mul
      exact Nat.mul_lt_mul_of_pos_right (words d) nonempty
    · exact ih (next d).2

theorem below_below {width size : Nat} {next : Draw Nat} (words : Below (twoTo width) next)
    (nonempty : 0 < size) : Below size (below width size next) := by
  intro d
  unfold below
  split
  · rename_i whole
    exact Nat.lt_of_lt_of_le (words d) whole
  · exact refuse_below words nonempty maxTries d

/-- A number of 64 bits drawn from a range that is not empty lies in it. -/
theorem between_mem {low high : Int} (least : leastInt64 ≤ low) (ordered : low ≤ high)
    (greatest : high ≤ greatestInt64) (d : Dice) :
    low ≤ (between low high d).1 ∧ (between low high d).1 ≤ high := by
  have wide : twoTo 64 = 18446744073709551616 := rfl
  unfold leastInt64 at least
  unfold greatestInt64 at greatest
  unfold between
  split
  · rename_i whole
    -- Only the whole range is as wide as that.
    rw [bind_apply, pure_apply]
    have lower := Int.le_bmod (x := (wideWord d).1) (m := twoTo 64) (by decide)
    have upper := Int.bmod_lt (x := (wideWord d).1) (m := twoTo 64) (by decide)
    dsimp only
    omega
  · have nonempty : 0 < (high - low + 1).toNat := by omega
    have inside := below_below wideWord_below nonempty d
    rw [bind_apply, pure_apply]
    unfold below64
    dsimp only
    omega

/-! ## What can be drawn -/

theorem wideWord_reaches {w : Nat} (fits : w < twoTo 64) : ∃ d, (wideWord d).1 = w := by
  have size : twoTo 32 = 4294967296 := rfl
  have wide : twoTo 64 = 18446744073709551616 := rfl
  refine ⟨⟨[], 0, [.ofNat (w % twoTo 32), .ofNat (w / twoTo 32)]⟩, ?_⟩
  change (UInt32.ofNat (w / twoTo 32)).toNat * twoTo 32 + (UInt32.ofNat (w % twoTo 32)).toNat = w
  rw [UInt32.toNat_ofNat', UInt32.toNat_ofNat', size]
  omega

/-- A word whose product is not refused gives the high half of the product. -/
theorem refuse_taken {width zone size tries w : Nat} {next : Draw Nat} {d : Dice} (drawn : (next d).1 = w)
    (taken : w * size % twoTo width ≤ zone) : (refuse width zone size next (tries + 1) d).1 = w * size / twoTo width := by
  unfold refuse
  rw [bind_apply, drawn, if_pos taken, pure_apply]

theorem below64_reaches {size k : Nat} (inside : k < size) (fits : size < twoTo 64) :
    ∃ d, (below64 size d).1 = k := by
  -- The least word whose product reaches `k` leaves less than `size` in the low half, and that is never refused.
  obtain ⟨w, r, product, part⟩ : ∃ w r, w * size = twoTo 64 * k + r ∧ r < size := by
    have least := Nat.div_mul_le_self (twoTo 64 * k + (size - 1)) size
    have next := Nat.lt_div_mul_add (a := twoTo 64 * k + (size - 1)) (show 0 < size by omega)
    exact ⟨(twoTo 64 * k + (size - 1)) / size, _, (Nat.add_sub_cancel' (by omega)).symm, by omega⟩
  have word : w < twoTo 64 := by
    refine Nat.lt_of_mul_lt_mul_right (a := size) ?_
    calc w * size < twoTo 64 * k + twoTo 64 := by omega
      _ = twoTo 64 * (k + 1) := by ring
      _ ≤ twoTo 64 * size := Nat.mul_le_mul_left _ inside
  obtain ⟨d, drawn⟩ := wideWord_reaches word
  have rest : w * size % twoTo 64 = r := by
    rw [product, Nat.mul_add_mod, Nat.mod_eq_of_lt (part.trans fits)]
  have zone : size ≤ size * twoTo (64 - 1 - size.log2) := Nat.le_mul_of_pos_right _ (Nat.two_pow_pos _)
  refine ⟨d, ?_⟩
  unfold below64 below
  rw [if_neg (Nat.not_le.mpr fits)]
  rw [show maxTries = 999 + 1 from rfl, refuse_taken drawn (by omega)]
  rw [product, Nat.mul_add_div (Nat.two_pow_pos 64), Nat.div_eq_of_lt (part.trans fits), Nat.add_zero]

/-- Every number of a range of 64 bits is drawn from it, by some state of the source. -/
theorem between_reaches {low high v : Int} (least : leastInt64 ≤ low) (after : low ≤ v) (before : v ≤ high)
    (greatest : high ≤ greatestInt64) : ∃ d, (between low high d).1 = v := by
  have wide : twoTo 64 = 18446744073709551616 := rfl
  unfold leastInt64 at least
  unfold greatestInt64 at greatest
  unfold between
  by_cases whole : twoTo 64 ≤ (high - low + 1).toNat
  · have fits : (v % 18446744073709551616).toNat < twoTo 64 := by
      rw [wide]
      omega
    obtain ⟨d, drawn⟩ := wideWord_reaches fits
    refine ⟨d, ?_⟩
    simp only [if_pos whole]
    rw [bind_apply, pure_apply, drawn, wide]
    simp only [Int.bmod]
    omega
  · have inside : (v - low).toNat < (high - low + 1).toNat := by omega
    obtain ⟨d, drawn⟩ := below64_reaches inside (Nat.not_le.mp whole)
    refine ⟨d, ?_⟩
    simp only [if_neg whole]
    rw [bind_apply, pure_apply, drawn]
    dsimp only
    omega

end PageSpec.Dynamic.Draw
