import Mathlib.Data.List.Forall2
import PageSpec.Bag
import PageSpec.Proofs.Text.Cutting
/-!
Texts in pieces. A text is a row of stretches without an opening brace, of tokens, and of opening braces that
open no token. Interpolation goes over it once: a token of a known variable gives way to what its path leads
to, and all else stays. However a text is taken apart, and whatever the variables hold, that is its result.
-/
namespace PageSpec.Tokens

/-! ## Tokens -/

/-- A name: letters of the basic alphabet, digits and underscores, at least one of them. -/
structure Word where
  letters : List Char
  some_ : letters ≠ []
  plain : ∀ c ∈ letters, c.isAlphanum = true ∨ c = '_'

/-- What may stand before the name of a segment. -/
inductive Lead where
  | nothing
  | dollar
  | hyphen

def Lead.chars : Lead → List Char
  | .nothing => []
  | .dollar => ['$']
  | .hyphen => ['-']

structure Segment where
  lead : Lead
  word : Word

def Segment.chars (s : Segment) : List Char := s.lead.chars ++ s.word.letters

def Segment.name (s : Segment) : String := .ofList s.chars

/-- A token: the name of a variable, and segments that lead into its value. -/
structure Token where
  root : Word
  segments : List Segment

namespace Token

def name (t : Token) : String := .ofList t.root.letters

/-- What stands between the braces. -/
def body (t : Token) : List Char := t.root.letters ++ t.segments.flatMap fun s => '.' :: s.chars

def chars (t : Token) : List Char := '{' :: (t.body ++ ['}'])

def parts (t : Token) : List (List Char) := t.root.letters :: t.segments.map Segment.chars

end Token

/-- A brace in front of this text opens a token. -/
def Opens (cs : List Char) : Prop := ∃ (t : Token) (after : List Char), cs = t.body ++ '}' :: after

/-! ## Pieces -/

inductive Piece where
  /-- A stretch without an opening brace. -/
  | stretch (cs : List Char) (free : '{' ∉ cs)
  | token (t : Token)
  /-- An opening brace that opens no token. -/
  | brace

def Piece.chars : Piece → List Char
  | .stretch cs _ => cs
  | .token t => t.chars
  | .brace => ['{']

/-- A text taken apart: no brace that stands for itself is followed by what would make it open a token. -/
structure Reading where
  pieces : List Piece
  lone : ∀ front back, pieces = front ++ .brace :: back → ¬ Opens (back.flatMap Piece.chars)

def Reading.text (r : Reading) : String := .ofList (r.pieces.flatMap Piece.chars)

/-! ## What the pieces become -/

/-- Where segments lead from a value: by name into an object, by position into a list. -/
inductive Leads : Json → List Segment → Json → Prop
  | here (v : Json) : Leads v [] v
  | field {fs : Fields} {v w : Json} {s : Segment} {segments : List Segment}
    (found : Fields.get? fs s.name = some v) (on : Leads v segments w) : Leads (.obj fs) (s :: segments) w
  | item {xs : List Json} {i : Nat} {v w : Json} {s : Segment} {segments : List Segment}
    (position : Bag.position? s.name = some i) (found : xs[i]? = some v) (on : Leads v segments w) :
    Leads (.arr xs) (s :: segments) w

/-- What a token becomes. -/
inductive Token.Becomes (b : Bag) (t : Token) : List Char → Prop
  | unknown (absent : b.get? t.name = none) : Becomes b t t.chars
  | missing {v : Json} (known : b.get? t.name = some v) (nowhere : ∀ w, ¬ Leads v t.segments w) :
    Becomes b t []
  | null {v : Json} (known : b.get? t.name = some v) (leads : Leads v t.segments .null) : Becomes b t []
  | text {v : Json} {s : String} (known : b.get? t.name = some v) (leads : Leads v t.segments (.str s)) :
    Becomes b t s.toList
  | other {v w : Json} (known : b.get? t.name = some v) (leads : Leads v t.segments w) (some_ : w ≠ .null)
    (noText : ∀ s, w ≠ .str s) : Becomes b t w.text.toList

/-- What a piece becomes. -/
inductive Piece.Becomes (b : Bag) : Piece → List Char → Prop
  | stretch {cs : List Char} (free : '{' ∉ cs) : Becomes b (.stretch cs free) cs
  | token {t : Token} {out : List Char} (becomes : t.Becomes b out) : Becomes b (.token t) out
  | brace : Becomes b .brace ['{']

/-! ## Reading a token -/

theorem isWordChar_iff {c : Char} : isWordChar c = true ↔ c.isAlphanum = true ∨ c = '_' := by
  unfold isWordChar Text.isAsciiAlnum Text.isAsciiLetter Text.isDigit Char.isAlphanum Char.isAlpha
    Char.isUpper Char.isLower Char.isDigit
  simp only [Bool.or_eq_true, Bool.and_eq_true, decide_eq_true_eq, beq_iff_eq, Char.le_def, ge_iff_le,
    or_comm]

theorem Word.run (w : Word) : ∀ c ∈ w.letters, isWordChar c = true :=
  fun c member => isWordChar_iff.mpr (w.plain c member)

/-- The first letter of a name is no sign. -/
theorem Word.cons (w : Word) : ∃ c cs, w.letters = c :: cs ∧ c ≠ '$' ∧ c ≠ '-' := by
  obtain ⟨c, cs, spelled⟩ := List.exists_cons_of_ne_nil w.some_
  have letter : isWordChar c = true := w.run c (spelled ▸ List.mem_cons_self)
  refine ⟨c, cs, spelled, ?_, ?_⟩ <;>
  · rintro rfl
    exact absurd letter (by decide)

/-- The sign before a segment, and what stands behind it. -/
def leadOf : List Char → List Char × List Char
  | '$' :: rest => (['$'], rest)
  | '-' :: rest => (['-'], rest)
  | rest => ([], rest)

theorem leadOf_other {c : Char} {cs : List Char} (noDollar : c ≠ '$') (noHyphen : c ≠ '-') :
    leadOf (c :: cs) = ([], c :: cs) := by
  simp [leadOf, noDollar, noHyphen]

theorem leadOf_chars (s : Segment) (rest : List Char) :
    leadOf (s.chars ++ rest) = (s.lead.chars, s.word.letters ++ rest) := by
  obtain ⟨lead, word⟩ := s
  cases lead with
  | nothing =>
    obtain ⟨c, cs, spelled, noDollar, noHyphen⟩ := word.cons
    simp [Segment.chars, Lead.chars, spelled, leadOf_other noDollar noHyphen]
  | dollar | hyphen => rfl

theorem leadOf_eq (cs : List Char) : ∃ lead : Lead, (leadOf cs).1 = lead.chars ∧
    cs = lead.chars ++ (leadOf cs).2 := by
  unfold leadOf
  split
  · exact ⟨.dollar, rfl, rfl⟩
  · exact ⟨.hyphen, rfl, rfl⟩
  · exact ⟨.nothing, rfl, rfl⟩

theorem leadOf_length (cs : List Char) : (leadOf cs).2.length ≤ cs.length := by
  obtain ⟨lead, _, split⟩ := leadOf_eq cs
  have sum := congrArg List.length split
  rw [List.length_append] at sum
  omega

section
variable {cs rest : List Char}

theorem readToken_nameless (nameless : cs.takeWhile isWordChar = []) : readToken cs = none := by
  rw [readToken, nameless]
  rfl

theorem readToken_close (w : Word) (after : List Char) :
    readToken (w.letters ++ '}' :: after) = some ([w.letters], after) := by
  have stop : ∀ c ∈ ('}' :: after).head?, isWordChar c = false := by
    rintro c ⟨⟩
    decide
  obtain ⟨run, rest⟩ := Text.run_stops w.run stop
  rw [readToken, run, rest]
  simp [w.some_]

theorem readToken_dot (w : Word) (rest : List Char) :
    readToken (w.letters ++ '.' :: rest) = match readToken (leadOf rest).2 with
      | some (first :: more, after) => some (w.letters :: ((leadOf rest).1 ++ first) :: more, after)
      | _ => none := by
  have stop : ∀ c ∈ ('.' :: rest).head?, isWordChar c = false := by
    rintro c ⟨⟩
    decide
  obtain ⟨run, tail⟩ := Text.run_stops w.run stop
  rw [readToken, run, tail]
  have shorter : (leadOf rest).2.length < (w.letters ++ '.' :: rest).length := by
    have bound := leadOf_length rest
    rw [List.length_append, List.length_cons]
    omega
  simp only [List.isEmpty_iff, w.some_, ↓reduceIte]
  cases rest with
  | nil => exact if_pos shorter
  | cons c rest =>
    by_cases dollar : c = '$'
    · subst dollar
      exact if_pos shorter
    by_cases hyphen : c = '-'
    · subst hyphen
      exact if_pos shorter
    rw [leadOf_other dollar hyphen] at shorter ⊢
    split
    case h_1 r same => exact absurd (List.cons.inj same).1 dollar
    case h_2 r same => exact absurd (List.cons.inj same).1 hyphen
    case h_3 => exact if_pos shorter

/-- Behind the name stands neither a closing brace nor a dot. -/
theorem readToken_stuck (w : Word) (stop : ∀ c ∈ rest.head?, isWordChar c = false ∧ c ≠ '}' ∧ c ≠ '.') :
    readToken (w.letters ++ rest) = none := by
  obtain ⟨run, tail⟩ := Text.run_stops w.run fun c first => (stop c first).1
  rw [readToken, run, tail]
  cases rest with
  | nil => simp
  | cons c rest =>
    obtain ⟨_, noClose, noDot⟩ := stop c rfl
    simp [noClose, noDot]

/-- What a text that is read as a token may begin with. -/
inductive Start : List Char → Prop
  | nameless {cs : List Char} (nameless : cs.takeWhile isWordChar = []) : Start cs
  | close (w : Word) (after : List Char) : Start (w.letters ++ '}' :: after)
  | dot (w : Word) (rest : List Char) : Start (w.letters ++ '.' :: rest)
  | stuck (w : Word) {rest : List Char}
    (stop : ∀ c ∈ rest.head?, isWordChar c = false ∧ c ≠ '}' ∧ c ≠ '.') : Start (w.letters ++ rest)

theorem start (cs : List Char) : Start cs := by
  by_cases nameless : cs.takeWhile isWordChar = []
  · exact .nameless nameless
  have plain : ∀ c ∈ cs.takeWhile isWordChar, c.isAlphanum = true ∨ c = '_' :=
    fun c member => isWordChar_iff.mp (List.mem_takeWhile_imp member)
  let w : Word := ⟨cs.takeWhile isWordChar, nameless, plain⟩
  have whole : w.letters ++ cs.dropWhile isWordChar = cs := List.takeWhile_append_dropWhile
  rw [← whole]
  cases rest : cs.dropWhile isWordChar with
  | nil => exact .stuck w (by rintro c ⟨⟩)
  | cons c tail =>
    have ends : isWordChar c = false := by
      have kept := List.head?_dropWhile_not isWordChar cs
      rw [rest] at kept
      exact kept
    by_cases close : c = '}'
    · rw [close]
      exact .close w tail
    by_cases dot : c = '.'
    · rw [dot]
      exact .dot w tail
    exact .stuck w (by rintro d ⟨⟩; exact ⟨ends, close, dot⟩)

theorem readToken_body (t : Token) (after : List Char) :
    readToken (t.body ++ '}' :: after) = some (t.parts, after) := by
  obtain ⟨root, segments⟩ := t
  -- Behind a dot the reader starts anew, so the name of a segment is the root of a shorter token.
  induction segments generalizing root with
  | nil => simpa [Token.body, Token.parts] using readToken_close root after
  | cons s segments ih =>
    have inner := ih s.word
    simp only [Token.body, List.append_assoc, Token.parts] at inner
    simp only [Token.body, List.flatMap_cons, List.cons_append, List.append_assoc, readToken_dot,
      leadOf_chars, inner, Token.parts, List.map_cons]
    rfl

theorem token_of_readToken : ∀ {cs after : List Char} {parts : List (List Char)},
    readToken cs = some (parts, after) → ∃ t : Token, cs = t.body ++ '}' :: after ∧ parts = t.parts
  | cs, after, parts, read => by
    cases start cs with
    | nameless nameless =>
      rw [readToken_nameless nameless] at read
      cases read
    | close w after =>
      rw [readToken_close] at read
      cases read
      exact ⟨⟨w, []⟩, by simp [Token.body], rfl⟩
    | stuck w stop =>
      rw [readToken_stuck w stop] at read
      cases read
    | dot w rest =>
      rw [readToken_dot] at read
      obtain ⟨lead, sign, whole⟩ := leadOf_eq rest
      have shorter := leadOf_length rest
      split at read
      · rename_i first more after' inner
        cases read
        obtain ⟨t, spelled, same⟩ := token_of_readToken inner
        cases same
        refine ⟨⟨w, ⟨lead, t.root⟩ :: t.segments⟩, ?_, ?_⟩
        · rw [whole, spelled]
          simp [Token.body, Segment.chars]
        · rw [sign]
          rfl
      · cases read
termination_by cs => cs.length
decreasing_by
  subst_vars
  rw [List.length_append, List.length_cons]
  omega

theorem readToken_eq_none_iff {cs : List Char} : readToken cs = none ↔ ¬ Opens cs := by
  constructor
  · rintro nothing ⟨t, after, rfl⟩
    rw [readToken_body] at nothing
    cases nothing
  · intro closed
    by_contra some_
    obtain ⟨⟨parts, after⟩, read⟩ := Option.ne_none_iff_exists'.mp some_
    obtain ⟨t, spelled, _⟩ := token_of_readToken read
    exact closed ⟨t, after, spelled⟩

end

/-! ## Reading a text -/

theorem textPieces_stretch {front : List Char} (free : '{' ∉ front) (cs : List Char) :
    textPieces (front ++ cs) = front.map .char ++ textPieces cs := by
  induction front with
  | nil => rfl
  | cons c front ih =>
    obtain ⟨other, later⟩ := not_or.mp (mt List.mem_cons.mpr free)
    rw [List.cons_append, textPieces, if_neg fun same => other same.symm, ih later]
    rfl

theorem textPieces_plain {cs : List Char} (free : '{' ∉ cs) : textPieces cs = cs.map .char := by
  have whole := textPieces_stretch free []
  rwa [textPieces, List.append_nil, List.append_nil] at whole

theorem textPieces_token (t : Token) (cs : List Char) :
    textPieces (t.chars ++ cs) = .token (t.parts.map String.ofList) :: textPieces cs := by
  have whole : t.chars ++ cs = '{' :: (t.body ++ '}' :: cs) := by simp [Token.chars]
  have shorter : cs.length < ('{' :: (t.body ++ '}' :: cs)).length := by
    simp only [List.length_cons, List.length_append]
    omega
  rw [whole, textPieces, if_pos rfl, readToken_body]
  exact if_pos shorter

theorem textPieces_brace {cs : List Char} (closed : ¬ Opens cs) :
    textPieces ('{' :: cs) = .char '{' :: textPieces cs := by
  rw [textPieces, if_pos rfl, readToken_eq_none_iff.mpr closed]

/-- How a piece is read. -/
def Piece.read : Piece → List TextPiece
  | .stretch cs _ => cs.map .char
  | .token t => [.token (t.parts.map String.ofList)]
  | .brace => [.char '{']

/-- A text is read piece by piece, however it is taken apart. -/
theorem textPieces_eq (r : Reading) : textPieces r.text.toList = r.pieces.flatMap Piece.read := by
  obtain ⟨pieces, lone⟩ := r
  rw [Reading.text, String.toList_ofList]
  dsimp only
  induction pieces with
  | nil => rw [List.flatMap_nil, textPieces]; rfl
  | cons p pieces ih =>
    have rest := ih fun front back split => lone (p :: front) back (by rw [split]; rfl)
    rw [List.flatMap_cons, List.flatMap_cons]
    cases p with
    | stretch cs free => rw [Piece.chars, textPieces_stretch free, rest]; rfl
    | token t => rw [Piece.chars, textPieces_token, rest]; rfl
    | brace =>
      rw [Piece.chars, List.singleton_append, textPieces_brace (lone [] pieces rfl), rest]
      rfl

example : textPieces ['{', '{', 'a', '}', '}'] = [.char '{', .token ["a"], .char '}'] := by decide +kernel

example : textPieces ['{', 'a', '{', 'b', '}'] = [.char '{', .char 'a', .token ["b"]] := by decide +kernel

/-! ## Taking a text apart -/

/-- A piece in front of a text that is taken apart already. -/
def Reading.cons (p : Piece) (r : Reading) (lone : p = .brace → ¬ Opens (r.pieces.flatMap Piece.chars)) :
    Reading where
  pieces := p :: r.pieces
  lone front back split := by
    cases front with
    | nil =>
      obtain ⟨same, rest⟩ := List.cons.inj split
      exact rest ▸ lone same
    | cons q front => exact r.lone front back (List.cons.inj split).2

theorem exists_pieces : ∀ cs : List Char, ∃ r : Reading, r.pieces.flatMap Piece.chars = cs
  | [] => ⟨⟨[], fun front back split => by simp at split⟩, rfl⟩
  | c :: cs => by
    by_cases brace : c = '{'
    · by_cases opens : Opens cs
      · obtain ⟨t, after, rfl⟩ := opens
        obtain ⟨r, rest⟩ := exists_pieces after
        refine ⟨r.cons (.token t) nofun, ?_⟩
        simp [Reading.cons, Piece.chars, Token.chars, rest, brace]
      · obtain ⟨r, rest⟩ := exists_pieces cs
        refine ⟨r.cons .brace fun _ => rest ▸ opens, ?_⟩
        simp [Reading.cons, Piece.chars, rest, brace]
    · obtain ⟨r, rest⟩ := exists_pieces cs
      have free : '{' ∉ [c] := by simpa using Ne.symm brace
      refine ⟨r.cons (.stretch [c] free) nofun, ?_⟩
      simp [Reading.cons, Piece.chars, rest]
termination_by cs => cs.length
decreasing_by
  all_goals
    subst_vars
    simp only [List.length_append, List.length_cons]
    omega

/-! ## What is written for a piece -/

/-- Where segments lead from a value, if anywhere. -/
def reached (v : Json) (segments : List Segment) : Option Json :=
  (segments.map Segment.name).foldl (fun at_ s => at_.bind (Bag.child? · s)) (some v)

theorem reached_cons (v : Json) (s : Segment) (segments : List Segment) :
    reached v (s :: segments) = (Bag.child? v s.name).bind (reached · segments) := by
  have nowhere : ∀ names : List String,
      names.foldl (fun at_ s => Option.bind at_ (Bag.child? · s)) none = none := by
    intro names
    induction names with
    | nil => rfl
    | cons _ _ ih => exact ih
  unfold reached
  rw [List.map_cons, List.foldl_cons, Option.bind_some]
  cases Bag.child? v s.name with
  | none => exact nowhere _
  | some w => rfl

theorem leads_iff : ∀ {segments : List Segment} {v w : Json},
    Leads v segments w ↔ reached v segments = some w
  | [], v, w => by
    constructor
    · rintro ⟨⟩
      rfl
    · rintro ⟨⟩
      exact .here v
  | s :: segments, v, w => by
    rw [reached_cons, Option.bind_eq_some_iff]
    constructor
    · intro leads
      cases leads with
      | field found on => exact ⟨_, found, leads_iff.mp on⟩
      | item position found on =>
        refine ⟨_, ?_, leads_iff.mp on⟩
        rw [Bag.child?, position]
        exact found
    · rintro ⟨inner, down, on⟩
      have on := leads_iff.mpr on
      cases v with
      | obj fs => exact .field down on
      | arr xs =>
        obtain ⟨i, position, found⟩ := Option.bind_eq_some_iff.mp down
        exact .item position found on
      | null | bool | int | float | str => cases down

theorem lookup_parts (b : Bag) (t : Token) :
    b.lookup (t.parts.map String.ofList) = (b.get? t.name).map (reached · t.segments) := by
  simp only [Token.parts, List.map_cons, List.map_map, Bag.lookup, reached]
  rfl

theorem intercalate_parts (t : Token) : (".".intercalate (t.parts.map String.ofList)).toList = t.body := by
  have joined : ∀ (first : List Char) (segments : List Segment),
      ['.'].intercalate (first :: segments.map Segment.chars) =
        first ++ segments.flatMap fun s => '.' :: s.chars := by
    intro first segments
    induction segments generalizing first with
    | nil => simp
    | cons s segments ih => simp [List.intercalate_cons_cons, ih]
  have back : (t.parts.map String.ofList).map String.toList = t.parts := by
    simp [Function.comp_def]
  rw [String.toList_intercalate, back]
  exact joined t.root.letters t.segments

theorem Token.becomes_iff {b : Bag} {t : Token} {out : List Char} :
    t.Becomes b out ↔ TextPiece.fill b (.token (t.parts.map String.ofList)) = out := by
  rw [TextPiece.fill, lookup_parts]
  constructor
  · intro becomes
    cases becomes with
    | unknown absent => rw [absent]; dsimp only [Option.map_none]; rw [intercalate_parts]; rfl
    | @missing v known nowhere =>
      have nothing : reached v t.segments = none :=
        Option.eq_none_iff_forall_ne_some.mpr fun w leads => nowhere w (leads_iff.mpr leads)
      rw [known, Option.map_some, nothing]
      rfl
    | null known leads => rw [known, Option.map_some, leads_iff.mp leads]; rfl
    | text known leads => rw [known, Option.map_some, leads_iff.mp leads]; rfl
    | @other v w known leads some_ noText =>
      rw [known, Option.map_some, leads_iff.mp leads]
      cases w with
      | null => exact absurd rfl some_
      | str s => exact absurd rfl (noText s)
      | bool | int | float | arr | obj => rfl
  · rintro rfl
    cases known : b.get? t.name with
    | none =>
      dsimp only [Option.map_none]
      rw [intercalate_parts]
      exact .unknown known
    | some v =>
      rw [Option.map_some]
      cases leads : reached v t.segments with
      | none => exact .missing known fun w there => by rw [leads_iff.mp there] at leads; cases leads
      | some w =>
        have leads := leads_iff.mpr leads
        cases w with
        | null => exact .null known leads
        | str s => exact .text known leads
        | bool | int | float | arr | obj => exact .other known leads nofun nofun

theorem fill_chars (b : Bag) (cs : List Char) :
    (cs.map TextPiece.char).flatMap (TextPiece.fill b) = cs := by
  rw [List.flatMap_map]
  exact List.flatMap_singleton' cs

theorem Piece.becomes_iff {b : Bag} {p : Piece} {out : List Char} :
    p.Becomes b out ↔ p.read.flatMap (TextPiece.fill b) = out := by
  cases p with
  | stretch cs free =>
    rw [Piece.read, fill_chars]
    exact ⟨fun | .stretch _ => rfl, fun | rfl => .stretch free⟩
  | token t =>
    rw [Piece.read, List.flatMap_singleton, ← Token.becomes_iff]
    exact ⟨fun | .token becomes => becomes, .token⟩
  | brace => exact ⟨fun | .brace => rfl, fun | rfl => .brace⟩

theorem becomes_all_iff {b : Bag} {pieces : List Piece} {outs : List (List Char)} :
    List.Forall₂ (Piece.Becomes b) pieces outs ↔
      pieces.map (fun p => p.read.flatMap (TextPiece.fill b)) = outs := by
  have same : Piece.Becomes b = fun p out => p.read.flatMap (TextPiece.fill b) = out := by
    funext p out
    exact propext Piece.becomes_iff
  rw [same, ← List.forall₂_map_left_iff, List.forall₂_eq_eq_eq]

/-- A text becomes what its pieces become, one behind the other, and nothing else. -/
theorem interpolate_text_iff {b : Bag} {r : Reading} {out : String} :
    interpolate b r.text = out ↔
      ∃ outs, List.Forall₂ (Piece.Becomes b) r.pieces outs ∧ String.ofList outs.flatten = out := by
  have joined : interpolate b r.text =
      String.ofList (r.pieces.map fun p => p.read.flatMap (TextPiece.fill b)).flatten := by
    rw [interpolate, textPieces_eq, List.flatMap_assoc, List.flatMap_def]
  simp only [becomes_all_iff, exists_eq_left', joined]

end PageSpec.Tokens
