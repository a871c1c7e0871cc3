import Mathlib.Data.List.Basic
import PageSpec.Text.Blank
/-!
Words and blanks. Collapsing a text keeps its words and nothing else: it leaves nothing of blanks alone, and
every character that is no blank stays, in its order.
-/
namespace PageSpec.Text

/-! ## Words -/

/-- The pending word is closed where the text ends. -/
theorem wordsFrom_pending (p : Char) (ps : List Char) : wordsFrom (p :: ps) [] = [(p :: ps).reverse] := rfl

section
variable {c : Char} {cs : List Char}

/-- Blanks between words do not count. -/
theorem wordsFrom_between (blank : isBlank c = true) : wordsFrom [] (c :: cs) = wordsFrom [] cs := by
  rw [wordsFrom, if_pos blank]
  rfl

/-- The pending word is closed where a blank comes. -/
theorem wordsFrom_close {p : Char} {ps : List Char} (blank : isBlank c = true) :
    wordsFrom (p :: ps) (c :: cs) = (p :: ps).reverse :: wordsFrom [] cs := by
  rw [wordsFrom, if_pos blank]
  rfl

theorem wordsFrom_open {pending : List Char} (letter : isBlank c = false) :
    wordsFrom pending (c :: cs) = wordsFrom (c :: pending) cs := by
  rw [wordsFrom, letter]
  rfl

end

theorem wordsFrom_blank : ∀ {cs : List Char}, cs.all isBlank = true → wordsFrom [] cs = []
  | [], _ => rfl
  | c :: cs, blank => by
    obtain ⟨first, others⟩ := Bool.and_eq_true_iff.mp blank
    rw [wordsFrom_between first, wordsFrom_blank others]

/-- A letter, in the pending word or still to come, leaves a word that is not empty. -/
theorem wordsFrom_letter : ∀ {pending cs : List Char}, pending ≠ [] ∨ cs.all isBlank = false →
    ∃ word others, wordsFrom pending cs = word :: others ∧ word ≠ []
  | [], [], letter => by simp at letter
  | p :: ps, [], _ => ⟨_, _, wordsFrom_pending p ps, by simp⟩
  | pending, c :: cs, letter => by
    cases blank : isBlank c with
    | false =>
      rw [wordsFrom_open blank]
      exact wordsFrom_letter (.inl (List.cons_ne_nil c pending))
    | true =>
      cases pending with
      | nil =>
        have later : cs.all isBlank = false := by simpa [blank] using letter
        rw [wordsFrom_between blank]
        exact wordsFrom_letter (.inr later)
      | cons p ps => exact ⟨(p :: ps).reverse, wordsFrom [] cs, wordsFrom_close blank, by simp⟩

/-- Collapsing leaves nothing of a text exactly if there are only blanks. -/
theorem collapse_eq_empty_iff {s : String} : collapse s = "" ↔ allBlank s = true := by
  unfold collapse allBlank words
  constructor
  · intro nothing
    by_contra letter
    obtain ⟨word, others, read, full⟩ := wordsFrom_letter (.inr (by simpa using letter))
    rw [read, List.map_cons] at nothing
    cases others with
    | nil => simp [full] at nothing
    | cons w ws =>
      rw [List.map_cons, String.intercalate_cons_cons] at nothing
      simp at nothing
  · intro blank
    rw [wordsFrom_blank blank]
    rfl

/-! ## Ink -/

/-- The characters of a text that are not blanks. -/
def ink (s : String) : List Char := s.toList.filter (!isBlank ·)

theorem ink_append (s t : String) : ink (s ++ t) = ink s ++ ink t := by
  unfold ink
  rw [String.toList_append, List.filter_append]

theorem ink_join (ss : List String) : ink (String.join ss) = ss.flatMap ink := by
  unfold ink
  rw [String.toList_join, List.filter_flatMap]

/-- The blanks between texts leave no ink. -/
theorem ink_intercalate : ∀ ss : List String, ink (" ".intercalate ss) = ss.flatMap ink
  | [] => rfl
  | [s] => by simp
  | s :: t :: ss => by
    have between : ink " " = [] := by decide
    rw [String.intercalate_cons_cons, ink_append, ink_append, ink_intercalate (t :: ss), between, List.append_nil]
    rfl

theorem wordsFrom_flatten : ∀ pending cs : List Char,
    (wordsFrom pending cs).flatten = pending.reverse ++ cs.filter (!isBlank ·)
  | [], [] => rfl
  | p :: ps, [] => by simp [wordsFrom_pending]
  | pending, c :: cs => by
    cases blank : isBlank c with
    | false =>
      rw [wordsFrom_open blank, wordsFrom_flatten (c :: pending) cs]
      simp [blank]
    | true =>
      cases pending with
      | nil => rw [wordsFrom_between blank, wordsFrom_flatten [] cs]; simp [blank]
      | cons p ps => rw [wordsFrom_close blank, List.flatten_cons, wordsFrom_flatten [] cs]; simp [blank]

/-- Collapsing moves blanks alone. -/
theorem ink_collapse (s : String) : ink (collapse s) = ink s := by
  have solid : (words s.toList).flatten = ink s := wordsFrom_flatten [] s.toList
  have bare : (ink s).filter (!isBlank ·) = ink s := by
    unfold ink
    rw [List.filter_filter]
    simp only [Bool.and_self]
  calc ink (collapse s)
      = (words s.toList).flatMap fun word => word.filter (!isBlank ·) := by
        unfold collapse
        rw [ink_intercalate, List.flatMap_map]
        simp only [ink, String.toList_ofList]
    _ = (words s.toList).flatten.filter (!isBlank ·) := by
        rw [List.filter_flatten, List.flatMap_def]
    _ = ink s := by rw [solid, bare]

end PageSpec.Text
