import PageSpec.Text.Blank
import PageSpec.Text.Find
import PageSpec.Text.Letters
/-!
Classes of signs. A sign in a class is none that is outside of it; the signs below the capital letters of the basic
alphabet are no letters, and neither are blanks. Decimal digits are a class of their own, with the number that they
write.
-/
namespace PageSpec.Text

theorem ne_of_class {p : Char → Bool} {c d : Char} (inside : p c = true) (outside : p d = false) : c ≠ d := by
  rintro rfl
  exact Bool.false_ne_true (outside.symm.trans inside)

theorem isLetter_low {c : Char} (low : c.toNat < 65) : isLetter c = false := by
  have none_ : alphabetic.bounds.takeWhile (· ≤ c.toNat) = [] := by
    rw [alphabetic, List.takeWhile_cons_of_neg]
    simpa using low
  rw [isLetter, CodeSet.has, none_]
  rfl

theorem isLetterOrDigit_low {c : Char} (low : c.toNat < 48) : isLetterOrDigit c = false := by
  have none_ : numeric.bounds.takeWhile (· ≤ c.toNat) = [] := by
    rw [numeric, List.takeWhile_cons_of_neg]
    simpa using low
  have digit : numeric.has c = false := by
    rw [CodeSet.has, none_]
    rfl
  have letter : alphabetic.has c = false := isLetter_low (by omega)
  rw [isLetterOrDigit, digit, letter]
  rfl

theorem isLetter_blank {c : Char} (blank : isBlank c = true) : isLetter c = false := by
  by_cases low : c.toNat < 65
  · exact isLetter_low low
  have others : ∀ n ∈ [0x85, 0xA0, 0x1680, 0x2000, 0x2001, 0x2002, 0x2003, 0x2004, 0x2005, 0x2006, 0x2007, 0x2008,
      0x2009, 0x200A, 0x2028, 0x2029, 0x202F, 0x205F, 0x3000],
      ((alphabetic.bounds.takeWhile (· ≤ n)).length % 2 == 1) = false := by decide +kernel
  apply others
  unfold isBlank at blank
  simp only [Bool.or_eq_true, Bool.and_eq_true, decide_eq_true_eq, beq_iff_eq] at blank
  simp only [List.mem_cons, List.not_mem_nil, or_false]
  omega

/-! ## Decimal digits -/

theorem isDigit_eq (c : Char) : isDigit c = c.isDigit := by
  unfold isDigit
  rw [Bool.eq_iff_iff]
  simp [Char.isDigit, Char.le_def]

theorem digitsValue_eq (cs : List Char) : digitsValue cs = Nat.ofDigitChars 10 cs 0 := by
  have steps : ∀ (cs : List Char) (start : Nat),
      cs.foldl (fun n c => n * 10 + (c.toNat - 48)) start = Nat.ofDigitChars 10 cs start := by
    intro cs
    induction cs with
    | nil => intro start; rfl
    | cons c cs ih =>
      intro start
      rw [List.foldl_cons, ih, Nat.ofDigitChars_cons, Nat.mul_comm]
      rfl
  exact steps cs 0

theorem toDigits_digit {n : Nat} {c : Char} (member : c ∈ Nat.toDigits 10 n) : isDigit c = true := by
  rw [isDigit_eq]
  exact Nat.isDigit_of_mem_toDigits (by omega) (by omega) member

/-- A number above zero is written without a zero in front. -/
theorem toDigits_first : ∀ {n : Nat}, 0 < n → ∃ d ds, Nat.toDigits 10 n = d :: ds ∧ d ≠ '0'
  | n, positive => by
    by_cases small : n < 10
    · have other : ∀ m < 10, 0 < m → m.digitChar ≠ '0' := by decide
      exact ⟨n.digitChar, [], Nat.toDigits_of_lt_base small, other n small positive⟩
    · obtain ⟨d, ds, front, other⟩ := toDigits_first (show 0 < n / 10 by omega)
      exact ⟨d, ds ++ [(n % 10).digitChar], by rw [Nat.toDigits_of_base_le (by omega) (by omega), front]; rfl, other⟩

end PageSpec.Text
