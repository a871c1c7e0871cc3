import PageSpec.Proofs.Dynamic.Arguments
/-!
The commas that separate arguments. A body is cut at every comma outside quotes and outside brackets, and nowhere
else, so that its pieces with commas between them are the body again. Where a text stands is told apart from the
splitter: quotes by what they are closed by, brackets by counting them.
-/
namespace PageSpec.Dynamic.DataCall

/-! ## Quotes and brackets -/

def IsQuote (c : Char) : Prop := c = '"' ∨ c = '\''

/-- What stands between two quotes of a kind. A quote of that kind stands there behind a backslash only. -/
inductive InsideQuotes (q : Char) : List Char → Prop
  | nothing : InsideQuotes q []
  | letter {c : Char} {cs : List Char} (plain : c ≠ '\\') (other : c ≠ q) (rest : InsideQuotes q cs) :
      InsideQuotes q (c :: cs)
  | escaped {c : Char} {cs : List Char} (rest : InsideQuotes q cs) : InsideQuotes q ('\\' :: c :: cs)

/-- A text at whose end no quote is open, and what it has outside of quotes. -/
inductive OutsideQuotes : List Char → List Char → Prop
  | nothing : OutsideQuotes [] []
  | letter {c : Char} {cs bare : List Char} (plain : ¬ IsQuote c) (rest : OutsideQuotes cs bare) :
      OutsideQuotes (c :: cs) (c :: bare)
  | quoted {q : Char} {inner cs bare : List Char} (quote : IsQuote q) (inside : InsideQuotes q inner)
      (rest : OutsideQuotes cs bare) : OutsideQuotes (q :: (inner ++ q :: cs)) bare

/-- The depth of brackets behind a character. A closing bracket without an opening one changes nothing. -/
def deepen (depth : Nat) (c : Char) : Nat :=
  if c = '{' ∨ c = '[' ∨ c = '(' then depth + 1
  else if c = '}' ∨ c = ']' ∨ c = ')' then depth - 1
  else depth

/-- The depth of brackets at the end of a text without quotes. -/
def bracketDepth (bare : List Char) : Nat := bare.foldl deepen 0

/-! ## Where the splitter stands -/

theorem after_cons (s : SplitState) (c : Char) (cs : List Char) : after s (c :: cs) = after (s.next c) cs := rfl

theorem next_quote {q : Char} (quote : IsQuote q) (d : Nat) : (SplitState.plain d).next q = .quoted q false d :=
  if_pos quote

theorem next_letter {c : Char} (plain : ¬ IsQuote c) (d : Nat) :
    (SplitState.plain d).next c = .plain (deepen d c) := by
  rw [SplitState.next, deepen]
  refine (if_neg plain).trans ?_
  split
  · rfl
  · split <;> rfl

theorem IsQuote.ne_backslash {q : Char} (quote : IsQuote q) : q ≠ '\\' := by
  rintro rfl
  rcases quote with double | single
  · cases double
  · cases single

theorem after_inside {q : Char} {inner : List Char} (quote : IsQuote q) (inside : InsideQuotes q inner) (d : Nat)
    (rest : List Char) : after (.quoted q false d) (inner ++ q :: rest) = after (.plain d) rest := by
  induction inside with
  | nothing =>
    rw [List.nil_append, after_cons, SplitState.next, if_neg quote.ne_backslash, if_pos rfl]
  | letter plain other _ ih =>
    rw [List.cons_append, after_cons, SplitState.next, if_neg plain, if_neg other, ih]
  | escaped _ ih =>
    rw [List.cons_append, List.cons_append, after_cons, after_cons, SplitState.next, if_pos rfl, SplitState.next, ih]

/-- Outside quotes the splitter knows the depth of brackets. -/
theorem after_outside {cs bare : List Char} (outside : OutsideQuotes cs bare) (d : Nat) :
    after (.plain d) cs = .plain (bare.foldl deepen d) := by
  induction outside generalizing d with
  | nothing => rfl
  | letter plain _ ih => rw [after_cons, next_letter plain, ih, List.foldl_cons]
  | quoted quote inside _ ih => rw [after_cons, next_quote quote, after_inside quote inside, ih]

/-- Where the splitter has come out of quotes, they were closed. -/
theorem closed_of_after {q : Char} {d d' : Nat} : ∀ {cs : List Char}, after (.quoted q false d) cs = .plain d' →
    ∃ inner rest, cs = inner ++ q :: rest ∧ InsideQuotes q inner ∧ after (.plain d) rest = .plain d'
  | [], open_ => nomatch open_
  | c :: cs, closed => by
    rw [after_cons, SplitState.next] at closed
    by_cases backslash : c = '\\'
    · subst backslash
      rw [if_pos rfl] at closed
      cases cs with
      | nil => cases closed
      | cons e cs =>
        rw [after_cons, SplitState.next] at closed
        obtain ⟨inner, rest, rfl, inside, plain⟩ := closed_of_after closed
        exact ⟨'\\' :: e :: inner, rest, rfl, .escaped inside, plain⟩
    · rw [if_neg backslash] at closed
      by_cases same : c = q
      · rw [if_pos same] at closed
        exact ⟨[], cs, by rw [same, List.nil_append], .nothing, closed⟩
      · rw [if_neg same] at closed
        obtain ⟨inner, rest, rfl, inside, plain⟩ := closed_of_after closed
        exact ⟨c :: inner, rest, rfl, .letter backslash same inside, plain⟩

theorem outside_of_after {d d' : Nat} : ∀ {cs : List Char}, after (.plain d) cs = .plain d' →
    ∃ bare, OutsideQuotes cs bare ∧ bare.foldl deepen d = d'
  | [], same => ⟨[], .nothing, SplitState.plain.inj same⟩
  | c :: cs, same => by
    rw [after_cons] at same
    by_cases quote : IsQuote c
    · rw [next_quote quote] at same
      obtain ⟨inner, rest, whole, inside, plain⟩ := closed_of_after same
      have shorter : rest.length < (c :: cs).length := by
        rw [whole, List.length_cons, List.length_append, List.length_cons]
        omega
      obtain ⟨bare, outside, depth⟩ := outside_of_after plain
      exact ⟨bare, whole ▸ .quoted quote inside outside, depth⟩
    · rw [next_letter quote] at same
      obtain ⟨bare, outside, depth⟩ := outside_of_after same
      exact ⟨c :: bare, .letter quote outside, depth⟩
termination_by cs => cs.length

theorem after_eq_plain_iff {cs : List Char} {d : Nat} :
    after (.plain 0) cs = .plain d ↔ ∃ bare, OutsideQuotes cs bare ∧ bracketDepth bare = d := by
  constructor
  · exact outside_of_after
  · rintro ⟨bare, outside, rfl⟩
    exact after_outside outside 0

/-! ## Where pieces meet -/

/-- The pieces that the splitter finds. -/
def pieces (s : SplitState) (cs : List Char) : List (List Char) := (splitFrom s cs).1 :: (splitFrom s cs).2

/-- The comma between two texts separates pieces: those before it make up the first text, with commas between
them, and those behind it the second. -/
def Separates (ps : List (List Char)) (front back : List Char) : Prop :=
  ∃ before behind, before ≠ [] ∧ behind ≠ [] ∧ ps = before ++ behind ∧
    [','].intercalate before = front ∧ [','].intercalate behind = back

theorem intercalate_pieces (s : SplitState) (cs : List Char) : [','].intercalate (pieces s cs) = cs :=
  (splitFrom_apart s cs).2

/-- Between pieces that lie apart the splitter is outside of everything. -/
theorem after_joined : ∀ {s : SplitState} {p : List Char} {ps : List (List Char)} {q : List Char}
    {qs : List (List Char)}, Apart s p (ps ++ q :: qs) → after s ([','].intercalate (p :: ps)) = .plain 0
  | s, p, [], q, qs, apart => by
    rw [List.intercalate_singleton]
    exact apart.1.ends
  | s, p, p' :: ps, q, qs, apart => by
    obtain ⟨passes, others⟩ := apart
    have comma : (SplitState.plain 0).next ',' = .plain 0 := rfl
    rw [List.intercalate_cons_cons, List.append_assoc, after_append, passes.ends, List.singleton_append, after_cons,
      comma]
    exact after_joined others

/-- At a comma that the splitter sees, the pieces of what is before it and of what is behind it meet. -/
theorem pieces_comma : ∀ {s : SplitState} {front : List Char}, after s front = .plain 0 → ∀ back : List Char,
    pieces s (front ++ ',' :: back) = pieces s front ++ pieces (.plain 0) back
  | s, [], here, back => by
    obtain rfl : s = .plain 0 := here
    rw [List.nil_append, pieces, splitFrom_comma]
    rfl
  | s, c :: front, here, back => by
    by_cases comma : s = .plain 0 ∧ c = ','
    · obtain ⟨rfl, rfl⟩ := comma
      have comes : after (.plain 0) front = .plain 0 := here
      have later := pieces_comma comes back
      rw [List.cons_append, pieces, splitFrom_comma, pieces, splitFrom_comma]
      exact congrArg ([] :: ·) later
    · have comes : after (s.next c) front = .plain 0 := here
      have later := pieces_comma comes back
      rw [List.cons_append, pieces, splitFrom_cons comma, pieces, splitFrom_cons comma]
      obtain ⟨first, others⟩ := List.cons.inj later
      exact congrArg₂ (fun p ps => (c :: p) :: ps) first others

/-- A comma separates two pieces exactly where the splitter is outside of everything. -/
theorem separates_iff {s : SplitState} {front back : List Char} :
    Separates (pieces s (front ++ ',' :: back)) front back ↔ after s front = .plain 0 := by
  constructor
  · rintro ⟨before, behind, some_, more, split, rfl, -⟩
    obtain ⟨p, ps, rfl⟩ := List.exists_cons_of_ne_nil some_
    obtain ⟨q, qs, rfl⟩ := List.exists_cons_of_ne_nil more
    have apart := (splitFrom_apart s ([','].intercalate (p :: ps) ++ ',' :: back)).1
    obtain ⟨first, others⟩ := List.cons.inj split
    rw [first, others] at apart
    exact after_joined apart
  · intro here
    exact ⟨pieces s front, pieces (.plain 0) back, List.cons_ne_nil _ _, List.cons_ne_nil _ _, pieces_comma here back,
      intercalate_pieces s front, intercalate_pieces (.plain 0) back⟩

/-! ## Blank bodies -/

theorem splitArgs_eq (cs : List Char) : splitArgs cs =
    if (pieces (.plain 0) cs).map Text.trimChars = [[]] then [] else (pieces (.plain 0) cs).map Text.trimChars := rfl

/-- Nothing but blanks is one piece, and it is trimmed away; nothing else is. -/
theorem pieces_trimmed_iff {cs : List Char} :
    (pieces (.plain 0) cs).map Text.trimChars = [[]] ↔ ∀ c ∈ cs, Text.isBlank c = true := by
  constructor
  · intro nothing
    obtain ⟨first, rest⟩ := List.cons.inj nothing
    have joined := intercalate_pieces (.plain 0) cs
    rw [pieces, List.map_eq_nil_iff.mp rest, List.intercalate_singleton] at joined
    rw [joined] at first
    exact Text.trimChars_eq_nil_iff.mp first
  · intro blank
    have dull : splitSigns.all (!Text.isBlank ·) = true := by decide
    have passes : Passes (.plain 0) cs (.plain 0) := .still_of_class dull blank
    rw [pieces, splitFrom_whole passes.whole, List.map_singleton, Text.trimChars_eq_nil_iff.mpr blank]

theorem splitArgs_eq_nil_iff {cs : List Char} : splitArgs cs = [] ↔ ∀ c ∈ cs, Text.isBlank c = true := by
  rw [← pieces_trimmed_iff, splitArgs_eq]
  constructor
  · intro none
    by_contra some_
    rw [if_neg some_] at none
    cases none
  · intro nothing
    exact if_pos nothing

/-! ## Every body -/

/-- Splitting loses nothing. The pieces of a body make up the body again, the arguments are the pieces without the
blanks around them, and there are none exactly if the body is blank. A comma separates two pieces exactly if it
stands outside quotes and at depth zero. -/
theorem splitArgs_pieces (body : List Char) : ∃ ps : List (List Char),
    [','].intercalate ps = body ∧
    (splitArgs body = [] ↔ ∀ c ∈ body, Text.isBlank c = true) ∧
    (splitArgs body ≠ [] → splitArgs body = ps.map Text.trimChars) ∧
    ∀ front back, body = front ++ ',' :: back →
      (Separates ps front back ↔ ∃ bare, OutsideQuotes front bare ∧ bracketDepth bare = 0) := by
  refine ⟨pieces (.plain 0) body, intercalate_pieces (.plain 0) body, splitArgs_eq_nil_iff, ?_, ?_⟩
  · intro some_
    rw [splitArgs_eq] at some_ ⊢
    split at some_
    · exact absurd rfl some_
    · rename_i more
      exact if_neg more
  · rintro front back rfl
    rw [separates_iff, after_eq_plain_iff]

/-- A closing bracket without an opening one, a comma between quotes behind an escaped quote, and a bracket that
stays open. -/
def unbalancedBody : String := "a), \"b\\\",\" , [c, d"

theorem unbalancedBody_separated : ∃ ps, [','].intercalate ps = unbalancedBody.toList ∧
    splitArgs unbalancedBody.toList = ps.map Text.trimChars ∧
    Separates ps "a)".toList " \"b\\\",\" , [c, d".toList ∧
    ¬ Separates ps "a), \"b\\\"".toList "\" , [c, d".toList ∧
    ¬ Separates ps "a), \"b\\\",\" , [c".toList " d".toList := by
  obtain ⟨ps, joined, _, args, cuts⟩ := splitArgs_pieces unbalancedBody.toList
  refine ⟨ps, joined, args (by decide), ?_, ?_, ?_⟩
  · rw [cuts _ _ (by decide), ← after_eq_plain_iff]
    decide
  · rw [cuts _ _ (by decide), ← after_eq_plain_iff]
    decide
  · rw [cuts _ _ (by decide), ← after_eq_plain_iff]
    decide

end PageSpec.Dynamic.DataCall
