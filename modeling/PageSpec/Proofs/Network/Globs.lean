import Mathlib.Data.List.Forall2
import PageSpec.Proofs.Network.Expressions
/-!
What URL globs mean. A glob is written as an anchored expression, piece by piece, and every sign in it with a
backslash. So an engine that does what is documented compiles each glob, and it finds the expression in those
URLs that the pattern covers: with any text for two stars, text without a slash for a single star, and every
other character for itself. The rows of the pattern's own reading come to the same.
-/
namespace PageSpec.Network

/-- A pattern covers a text. Stars count in pairs from the left, so a single star has no star behind it. -/
inductive Covers : List Char → List Char → Prop
  | nothing : Covers [] []
  | pair {pattern rest : List Char} (front : List Char) (covers : Covers pattern rest) :
    Covers ('*' :: '*' :: pattern) (front ++ rest)
  | star {pattern front rest : List Char} (single : pattern.head? ≠ some '*') (inside : '/' ∉ front)
    (covers : Covers pattern rest) : Covers ('*' :: pattern) (front ++ rest)
  | char {c : Char} {pattern rest : List Char} (plain : c ≠ '*') (covers : Covers pattern rest) :
    Covers (c :: pattern) (c :: rest)

/-! ## Globs as expressions -/

def GlobPiece.term : GlobPiece → Term
  | .anything => .many .any
  | .segment => .many (.noneOf '/' (by decide))
  | .char c => .one (.letter c)

def Glob.expression (g : Glob) : Expression := ⟨.start :: (g.pieces.map GlobPiece.term ++ [.finish])⟩

/-- No star is left over as a character. -/
theorem star_not_mem_ofChars (cs : List Char) : .char '*' ∉ GlobPiece.ofChars cs := by
  induction cs using GlobPiece.ofChars.induct with
  | case1 cs ih => simpa [GlobPiece.ofChars] using ih
  | case2 cs single ih => simpa [GlobPiece.ofChars] using ih
  | case3 c cs pair star ih =>
    have other : '*' ≠ c := fun same => star same.symm
    simpa [GlobPiece.ofChars, other] using ih
  | case4 => exact List.not_mem_nil

theorem GlobPiece.term_chars {p : GlobPiece} (plain : p ≠ .char '*') : p.term.chars = p.pattern := by
  cases p with
  | anything => rfl
  | segment => rfl
  | char c =>
    have other : c ≠ '*' := fun same => plain (by rw [same])
    -- Of all signs the star alone is not among those that are written with a backslash.
    have same : c ∈ signs ↔
        ['.', '+', '^', '$', '{', '}', '(', ')', '|', '[', ']', '\\', '?'].contains c = true := by
      simp only [signs, List.contains_iff_mem, List.mem_cons, List.not_mem_nil, or_false]
      tauto
    by_cases sign : c ∈ signs
    · rw [GlobPiece.pattern, if_pos (same.mp sign)]
      exact if_pos sign
    · rw [GlobPiece.pattern, if_neg (mt same.mpr sign)]
      exact if_neg sign

theorem expression_text (pattern : String) :
    (Glob.ofString pattern).expression.text = (Glob.ofString pattern).regex := by
  have pieces : ∀ ps : List GlobPiece, .char '*' ∉ ps →
      (ps.map GlobPiece.term).flatMap Term.chars = ps.flatMap GlobPiece.pattern := by
    intro ps plain
    rw [List.flatMap_map]
    apply List.flatMap_congr
    intro p member
    exact GlobPiece.term_chars (ne_of_mem_of_not_mem member plain)
  have written := pieces (Glob.ofString pattern).pieces (star_not_mem_ofChars pattern.toList)
  rw [Expression.text, Glob.regex, Glob.expression, List.flatMap_cons, List.flatMap_append, written]
  rfl

/-! ## The pieces along a text -/

/-- The pieces match a text from its first character to its last. -/
def Spans : List GlobPiece → List Char → Prop
  | [], cs => cs = []
  | .char c :: ps, cs => ∃ rest, cs = c :: rest ∧ Spans ps rest
  | p :: ps, cs => ∃ run rest, cs = run ++ rest ∧ (∀ c ∈ run, p.admits c = true) ∧ Spans ps rest

theorem along_iff : ∀ {ps : List GlobPiece} {before cs : List Char},
    Along (ps.map GlobPiece.term ++ [.finish]) before cs ↔ Spans ps cs
  | [], before, cs => by simp [Along, Spans]
  | .char c :: ps, before, cs => by
    simp [Along, Spans, GlobPiece.term, Atom.admits, along_iff]
  | .anything :: ps, before, cs => by
    simp [Along, Spans, GlobPiece.term, Atom.admits, GlobPiece.admits, along_iff]
  | .segment :: ps, before, cs => by
    simp [Along, Spans, GlobPiece.term, Atom.admits, GlobPiece.admits, along_iff]

theorem expression_found_iff {g : Glob} {url : String} : g.expression.Found url ↔ Spans g.pieces url.toList := by
  constructor
  · rintro ⟨before, cs, split, rfl, along⟩
    rw [split, List.nil_append]
    exact along_iff.mp along
  · intro spans
    exact ⟨[], url.toList, rfl, rfl, along_iff.mpr spans⟩

/-- A pattern covers a text within a line exactly if its pieces span it. -/
theorem spans_iff_covers {pattern cs : List Char} (line : '\n' ∉ cs) :
    Spans (GlobPiece.ofChars pattern) cs ↔ Covers pattern cs := by
  induction pattern using GlobPiece.ofChars.induct generalizing cs with
  | case1 pattern ih =>
    rw [GlobPiece.ofChars]
    constructor
    · rintro ⟨run, rest, rfl, _, spans⟩
      exact .pair run ((ih (by simp_all)).mp spans)
    · intro covers
      cases covers with
      | @pair _ rest front covers =>
        rw [List.mem_append, not_or] at line
        refine ⟨front, rest, rfl, ?_, (ih line.2).mpr covers⟩
        intro c member
        exact bne_iff_ne.mpr (ne_of_mem_of_not_mem member line.1)
      | star single => exact absurd rfl single
      | char plain => exact absurd rfl plain
  | case2 pattern pair ih =>
    have single : pattern.head? ≠ some '*' := by
      intro first
      obtain ⟨rest, rfl⟩ := List.head?_eq_some_iff.mp first
      exact pair rest rfl
    rw [GlobPiece.ofChars]
    · constructor
      · rintro ⟨run, rest, rfl, inside, spans⟩
        refine .star single ?_ ((ih (by simp_all)).mp spans)
        intro slash
        exact bne_iff_ne.mp (inside '/' slash) rfl
      · intro covers
        cases covers with
        | pair front covers => exact absurd rfl single
        | @star _ front rest _ inside covers =>
          rw [List.mem_append, not_or] at line
          refine ⟨front, rest, rfl, ?_, (ih line.2).mpr covers⟩
          intro c member
          exact bne_iff_ne.mpr (ne_of_mem_of_not_mem member inside)
        | char plain => exact absurd rfl plain
    · exact pair
  | case3 c pattern pair star ih =>
    rw [GlobPiece.ofChars]
    · constructor
      · rintro ⟨rest, rfl, spans⟩
        exact .char star ((ih (by simp_all)).mp spans)
      · intro covers
        cases covers with
        | pair | star => exact absurd rfl star
        | @char _ _ rest _ covers => exact ⟨rest, rfl, (ih (by simp_all)).mpr covers⟩
    · exact pair
    · exact star
  | case4 =>
    constructor
    · rintro rfl
      exact .nothing
    · intro covers
      cases covers
      rfl

/-! ## The rows -/

/-- A row tells for every end of a text, longest first, whether pieces span it. -/
def Tells (ps : List GlobPiece) : List Bool → List (List Char) → Prop :=
  List.Forall₂ fun told cs => told = true ↔ Spans ps cs

theorem Tells.first {ps : List GlobPiece} {row : List Bool} {cs : List Char} (told : Tells ps row cs.tails) :
    ∃ here later, row = here :: later ∧ (here = true ↔ Spans ps cs) := by
  cases cs with
  | nil =>
    obtain ⟨here, later, first, _, rfl⟩ := List.forall₂_cons_right_iff.mp told
    exact ⟨here, later, rfl, first⟩
  | cons c cs =>
    obtain ⟨here, later, first, _, rfl⟩ := List.forall₂_cons_right_iff.mp told
    exact ⟨here, later, rfl, first⟩

theorem tells_end (cs : List Char) : Tells [] (cs.map (fun _ => false) ++ [true]) cs.tails := by
  induction cs with
  | nil => exact .cons (by simp [Spans]) .nil
  | cons c cs ih =>
    rw [List.tails]
    exact .cons (by simp [Spans]) ih

theorem tells_char {ps : List GlobPiece} (d : Char) : ∀ {cs : List Char} {row : List Bool},
    Tells ps row cs.tails →
    Tells (.char d :: ps) (List.zipWith (fun c later => c == d && later) cs row.tail ++ [false]) cs.tails
  | [], row, told => by
    rw [List.zipWith_nil_left]
    exact .cons (by simp [Spans]) .nil
  | c :: cs, row, told => by
    rw [List.tails] at told ⊢
    obtain ⟨here, later, _, behind, rfl⟩ := List.forall₂_cons_right_iff.mp told
    have rest := tells_char d behind
    obtain ⟨next, others, rfl, first⟩ := Tells.first behind
    refine .cons ?_ rest
    simp [Spans, first]

/-- A run is empty, or it is a character and a run behind it. -/
theorem run_step (admits : Char → Bool) {ps : List GlobPiece} {cs : List Char} :
    (∃ run rest, cs = run ++ rest ∧ (∀ c ∈ run, admits c = true) ∧ Spans ps rest) ↔
      Spans ps cs ∨ ∃ c behind, cs = c :: behind ∧ admits c = true ∧
        ∃ run rest, behind = run ++ rest ∧ (∀ c ∈ run, admits c = true) ∧ Spans ps rest := by
  constructor
  · rintro ⟨run, rest, rfl, run_admits, spans⟩
    cases run with
    | nil => exact .inl spans
    | cons c run =>
      obtain ⟨first, others⟩ := List.forall_mem_cons.mp run_admits
      exact .inr ⟨c, run ++ rest, rfl, first, run, rest, rfl, others, spans⟩
  · rintro (spans | ⟨c, _, rfl, first, run, rest, rfl, others, spans⟩)
    · exact ⟨[], cs, rfl, List.forall_mem_nil _, spans⟩
    · exact ⟨c :: run, rest, rfl, List.forall_mem_cons.mpr ⟨first, others⟩, spans⟩

theorem spans_star {p : GlobPiece} (star : p = .anything ∨ p = .segment) {ps : List GlobPiece} {cs : List Char} :
    Spans (p :: ps) cs ↔
      Spans ps cs ∨ ∃ c rest, cs = c :: rest ∧ p.admits c = true ∧ Spans (p :: ps) rest := by
  obtain rfl | rfl := star
  · exact run_step (GlobPiece.admits .anything)
  · exact run_step (GlobPiece.admits .segment)

theorem tells_star {p : GlobPiece} (star : p = .anything ∨ p = .segment) {ps : List GlobPiece} :
    ∀ {cs : List Char} {row : List Bool}, Tells ps row cs.tails →
      Tells (p :: ps) (GlobPiece.starRow p cs row) cs.tails
  | [], row, told => by
    obtain ⟨here, later, first, behind, rfl⟩ := List.forall₂_cons_right_iff.mp told
    cases behind
    refine .cons ?_ .nil
    rw [first, spans_star star]
    simp
  | c :: cs, row, told => by
    rw [List.tails] at told ⊢
    obtain ⟨here, later, first, behind, rfl⟩ := List.forall₂_cons_right_iff.mp told
    have rest := tells_star star behind
    obtain ⟨next, others, same, longer⟩ := Tells.first rest
    rw [GlobPiece.starRow]
    refine .cons ?_ rest
    rw [spans_star star, same]
    simp [first, longer]

theorem tells_matchRow (cs : List Char) : ∀ ps : List GlobPiece, Tells ps (GlobPiece.matchRow cs ps) cs.tails
  | [] => tells_end cs
  | .char d :: ps => tells_char d (tells_matchRow cs ps)
  | .anything :: ps => tells_star (.inl rfl) (tells_matchRow cs ps)
  | .segment :: ps => tells_star (.inr rfl) (tells_matchRow cs ps)

theorem admits_iff_spans {g : Glob} {url : String} : g.admits url = true ↔ Spans g.pieces url.toList := by
  obtain ⟨here, later, row, first⟩ := Tells.first (tells_matchRow url.toList g.pieces)
  rw [Glob.admits, row]
  exact first

/-! ## Globs -/

/-- Every glob within the limit on sizes compiles. What is found is what the glob admits, and of the URLs within a
line these are the ones that the pattern covers. -/
theorem glob_covers {e : Engine} (documented : e.Documented) (pattern : String)
    (fits : e.Fits (Glob.ofString pattern).regex) :
    ∃ made, e.glob pattern = .ok made ∧
      (∀ url : String, e.isMatch made url = (UrlPattern.glob (.ofString pattern)).admits url) ∧
      ∀ url : String, '\n' ∉ url.toList → (e.isMatch made url = true ↔ Covers pattern.toList url.toList) := by
  rw [← expression_text] at fits
  obtain ⟨made, compiled⟩ := documented.compiles _ fits
  have found (url : String) : e.isMatch made url = true ↔ Spans (GlobPiece.ofChars pattern.toList) url.toList :=
    (documented.finds _ made url compiled).trans expression_found_iff
  rw [expression_text] at compiled
  refine ⟨made, by rw [Engine.glob, compiled]; rfl, ?_, ?_⟩
  · intro url
    have admitted : (Glob.ofString pattern).admits url = true ↔ _ := admits_iff_spans
    rw [Bool.eq_iff_iff, found]
    exact admitted.symm
  · intro url line
    rw [found, spans_iff_covers line]

/-- A glob with signs in it, and with three stars of which the last stands alone. -/
theorem scriptGlob_covers : (Engine.plain 1000).Documented ∧
    (Engine.plain 1000).Fits (Glob.ofString "**/a+b/***.js?v=*").regex ∧
    ∃ made, (Engine.plain 1000).glob "**/a+b/***.js?v=*" = .ok made ∧
      (∀ url : String, (Engine.plain 1000).isMatch made url =
        (UrlPattern.glob (.ofString "**/a+b/***.js?v=*")).admits url) ∧
      ∀ url : String, '\n' ∉ url.toList → ((Engine.plain 1000).isMatch made url = true ↔
        Covers "**/a+b/***.js?v=*".toList url.toList) := by
  have fits : (Engine.plain 1000).Fits (Glob.ofString "**/a+b/***.js?v=*").regex :=
    show (Glob.ofString "**/a+b/***.js?v=*").regex.length ≤ 1000 by decide +kernel
  exact ⟨plain_documented 1000, fits, glob_covers (plain_documented 1000) _ fits⟩

end PageSpec.Network
