import PageSpec.Proofs.Text.Cutting
/-!
How often a sign stands in a text. Blanks around the text and its escapes do not change that, and texts joined by the
sign are told apart by it.
-/
namespace PageSpec.Text

theorem replacePair_cons {a b by_ c : Char} {cs : List Char} (other : cs.head? ≠ some b) :
    replacePair a b by_ (c :: cs) = c :: replacePair a b by_ cs := by
  cases cs with
  | nil => rfl
  | cons d cs =>
    rw [replacePair, if_neg]
    rintro ⟨_, rfl⟩
    exact other rfl

section
variable {sep : Char}

theorem count_blanks (letter : isBlank sep = false) {cs : List Char} (blank : ∀ c ∈ cs, isBlank c = true) :
    cs.count sep = 0 := by
  apply List.count_eq_zero.mpr
  intro member
  exact absurd (blank sep member) (by rw [letter]; exact Bool.false_ne_true)

theorem count_dropWhile (letter : isBlank sep = false) (cs : List Char) :
    (cs.dropWhile isBlank).count sep = cs.count sep := by
  have whole := congrArg (List.count sep) (List.takeWhile_append_dropWhile (p := isBlank) (l := cs))
  rw [List.count_append, count_blanks letter fun c member => List.mem_takeWhile_imp member, Nat.zero_add] at whole
  exact whole

theorem count_trimChars (letter : isBlank sep = false) (cs : List Char) :
    (trimChars cs).count sep = cs.count sep := by
  rw [trimChars, trimEnd, List.count_reverse, count_dropWhile letter, List.count_reverse, trimStart,
    count_dropWhile letter]

theorem count_replacePair {a b by_ : Char} (none_ : sep ≠ a ∧ sep ≠ b ∧ sep ≠ by_) : ∀ cs : List Char,
    (replacePair a b by_ cs).count sep = cs.count sep
  | [] => rfl
  | [_] => rfl
  | c :: d :: cs => by
    obtain ⟨first, second, third⟩ := none_
    rw [replacePair]
    by_cases pair : c = a ∧ d = b
    · obtain ⟨rfl, rfl⟩ := pair
      rw [if_pos ⟨rfl, rfl⟩, List.count_cons_of_ne third.symm, List.count_cons_of_ne first.symm,
        List.count_cons_of_ne second.symm, count_replacePair ⟨first, second, third⟩]
    · rw [if_neg pair, List.count_cons, List.count_cons (l := d :: cs), count_replacePair ⟨first, second, third⟩]

theorem append_inj_of_count {p q : List Char} (same : p.count sep = q.count sep) {xs ys : List Char}
    (joined : p ++ sep :: xs = q ++ sep :: ys) : p = q ∧ xs = ys := by
  have nothing {m r : List Char} (more : m.count sep = 0) {us vs : List Char}
      (behind : sep :: us = m ++ sep :: vs) : m = [] ∧ us = vs := by
    cases m with
    | nil => exact ⟨rfl, (List.cons.inj behind).2⟩
    | cons c m =>
      obtain ⟨rfl, _⟩ := List.cons.inj behind
      simp at more
  rcases List.append_eq_append_iff.mp joined with ⟨m, longer, behind⟩ | ⟨m, longer, behind⟩
  · rw [longer, List.count_append] at same
    obtain ⟨rfl, ends⟩ := nothing (r := p) (by omega) behind
    exact ⟨by rw [longer, List.append_nil], ends⟩
  · rw [longer, List.count_append] at same
    obtain ⟨rfl, ends⟩ := nothing (r := p) (by omega) behind
    exact ⟨by rw [longer, List.append_nil], ends.symm⟩

/-- Joined texts whose pieces have as many separators each have the same pieces. -/
theorem intercalate_inj_of_count : ∀ {ps qs : List (List Char)}, ps.map (List.count sep) = qs.map (List.count sep) →
    [sep].intercalate ps = [sep].intercalate qs → ps = qs
  | [], [], _, _ => rfl
  | [p], [q], _, joined => by
    rw [List.intercalate_singleton, List.intercalate_singleton] at joined
    rw [joined]
  | [_], _ :: _ :: _, counts, _ => by simp at counts
  | _ :: _ :: _, [_], counts, _ => by simp at counts
  | p :: p' :: ps, q :: q' :: qs, counts, joined => by
    obtain ⟨same, others⟩ := List.cons.inj counts
    simp only [List.intercalate_cons_cons, List.append_assoc, List.singleton_append] at joined
    obtain ⟨rfl, behind⟩ := append_inj_of_count same joined
    rw [intercalate_inj_of_count others behind]

end

end PageSpec.Text
