import PageSpec.Text.Base64
/-!
Base 64 read back: the letters that are written for some bytes stand for these bytes and no others.
-/
namespace PageSpec.Text.Base64

theorem value?_letter (n : Nat) : value? (letter n) = some (n % 64) := by
  have each : ∀ m < 64, value? (alphabet.getD m 'A') = some m := by decide
  exact each (n % 64) (Nat.mod_lt n (by decide))

/-- No letter is mistaken for the fill. -/
theorem letter_ne_fill (n : Nat) : letter n ≠ '=' := by
  intro same
  have value := value?_letter n
  rw [same] at value
  cases value

theorem byte_of_mod {n : Nat} {b : UInt8} (same : n % 256 = b.toNat) : UInt8.ofNat n = b := by
  apply UInt8.toNat.inj
  rw [UInt8.toNat_ofNat', same]

theorem decode?_encode (bytes : List UInt8) : decode? (encode bytes) = some bytes := by
  fun_induction encode bytes with
  | case1 => rfl
  | case2 a n =>
    have size := a.toNat_lt
    have value : n / 64 % 64 * 64 + n % 64 = n := by omega
    simp only [decode?, value?_letter, Option.bind_eq_bind, Option.bind_some, value]
    rw [if_pos (by omega), byte_of_mod (b := a) (by omega)]
  | case3 a b n =>
    have size := a.toNat_lt
    have size' := b.toNat_lt
    have value : (n / 4096 % 64 * 64 + n / 64 % 64) * 64 + n % 64 = n := by omega
    rw [decode?.eq_3 _ _ _ (letter_ne_fill n)]
    simp only [value?_letter, Option.bind_eq_bind, Option.bind_some, value]
    rw [if_pos (by omega), byte_of_mod (b := a) (by omega), byte_of_mod (b := b) (by omega)]
  | case4 a b c rest n ih =>
    have size := a.toNat_lt
    have size' := b.toNat_lt
    have size'' := c.toNat_lt
    have value : ((n / 262144 % 64 * 64 + n / 4096 % 64) * 64 + n / 64 % 64) * 64 + n % 64 = n := by omega
    have whole := letter_ne_fill n
    rw [decode?.eq_4 _ _ _ _ _ (fun _ fill => absurd fill whole) (fun fill => absurd fill whole), ih]
    simp only [value?_letter, Option.bind_eq_bind, Option.bind_some, value]
    rw [byte_of_mod (b := a) (by omega), byte_of_mod (b := b) (by omega), byte_of_mod (b := c) (by omega)]

end PageSpec.Text.Base64
