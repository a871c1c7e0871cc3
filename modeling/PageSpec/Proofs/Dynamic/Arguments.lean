import Mathlib.Data.Bool.AllAny
import PageSpec.Dynamic.Call
import PageSpec.Proofs.Json.Signs
import PageSpec.Proofs.Text.Cutting
/-!
The arguments of a call for made-up data. The splitter cuts a body exactly where a comma is met outside quotes and
brackets; a text that it passes without meeting such a comma stays in one piece. Compact JSON is passed, whatever
its strings hold, so that arrays and objects written as arguments are the arguments that are read.
-/
namespace PageSpec.Dynamic.DataCall

/-! ## What the splitter passes -/

/-- The state after a text. -/
def after (s : SplitState) (cs : List Char) : SplitState := cs.foldl SplitState.next s

/-- No separating comma is met in a text. -/
def Whole : SplitState → List Char → Prop
  | _, [] => True
  | s, c :: cs => ¬ (s = .plain 0 ∧ c = ',') ∧ Whole (s.next c) cs

instance decidableWhole : ∀ (s : SplitState) (cs : List Char), Decidable (Whole s cs)
  | _, [] => inferInstanceAs (Decidable True)
  | s, c :: cs =>
    have := decidableWhole (s.next c) cs
    inferInstanceAs (Decidable (¬ (s = .plain 0 ∧ c = ',') ∧ Whole (s.next c) cs))

/-- The text is passed in one piece, from one state to another. -/
structure Passes (s : SplitState) (cs : List Char) (t : SplitState) : Prop where
  whole : Whole s cs
  ends : after s cs = t

theorem after_append (s : SplitState) (front back : List Char) :
    after s (front ++ back) = after (after s front) back :=
  List.foldl_append

theorem whole_append : ∀ {s : SplitState} {front back : List Char},
    Whole s (front ++ back) ↔ Whole s front ∧ Whole (after s front) back
  | _, [], _ => by simp [Whole, after]
  | s, c :: front, back => by
    rw [List.cons_append, Whole, Whole, whole_append, and_assoc]
    rfl

/-- The signs that mean something to the splitter outside quotes. -/
def splitSigns : List Char := ['"', '\'', '{', '[', '(', '}', ']', ')', ',']

namespace Passes
variable {s t u : SplitState} {front back : List Char} {c : Char} {d : Nat}

theorem nothing (s : SplitState) : Passes s [] s := ⟨trivial, rfl⟩

theorem append (first : Passes s front t) (second : Passes t back u) : Passes s (front ++ back) u := by
  obtain ⟨whole, rfl⟩ := first
  exact ⟨whole_append.mpr ⟨whole, second.whole⟩, (after_append s front back).trans second.ends⟩

theorem cons (free : ¬ (s = .plain 0 ∧ c = ',')) (rest : Passes (s.next c) back t) : Passes s (c :: back) t :=
  ⟨⟨free, rest.whole⟩, rest.ends⟩

/-- Inside quotes nothing separates. -/
theorem inside {q : Char} {escaped : Bool} (rest : Passes ((SplitState.quoted q escaped d).next c) back t) :
    Passes (.quoted q escaped d) (c :: back) t :=
  cons (fun both => nomatch both.1) rest

theorem still {cs : List Char} (dull : ∀ c ∈ cs, c ∉ splitSigns) : Passes (.plain d) cs (.plain d) := by
  induction cs with
  | nil => exact nothing _
  | cons c cs ih =>
    have other := dull c List.mem_cons_self
    simp only [splitSigns, List.mem_cons, List.not_mem_nil, or_false, not_or] at other
    obtain ⟨quote, single, brace, bracket, paren, brace', bracket', paren', comma⟩ := other
    have stays : (SplitState.plain d).next c = .plain d := by
      simp [SplitState.next, quote, single, brace, bracket, paren, brace', bracket', paren']
    refine cons (fun both => comma both.2) ?_
    rw [stays]
    exact ih fun c member => dull c (List.mem_cons_of_mem _ member)

theorem still_of_class {p : Char → Bool} (none_ : splitSigns.all (!p ·) = true) {cs : List Char}
    (inside : ∀ c ∈ cs, p c = true) : Passes (.plain d) cs (.plain d) := by
  apply still
  intro c member listed
  have outside := List.all_eq_true.mp none_ c listed
  rw [inside c member] at outside
  cases outside

end Passes

/-! ## Where the splitter cuts -/

/-- Pieces between which the splitter meets its commas. -/
def Apart : SplitState → List Char → List (List Char) → Prop
  | s, p, [] => Whole s p
  | s, p, q :: ps => Passes s p (.plain 0) ∧ Apart (.plain 0) q ps

theorem splitFrom_cons {s : SplitState} {c : Char} {cs : List Char} (free : ¬ (s = .plain 0 ∧ c = ',')) :
    splitFrom s (c :: cs) = (c :: (splitFrom (s.next c) cs).1, (splitFrom (s.next c) cs).2) := by
  rw [splitFrom, if_neg free]

theorem splitFrom_comma (cs : List Char) :
    splitFrom (.plain 0) (',' :: cs) = ([], (splitFrom (.plain 0) cs).1 :: (splitFrom (.plain 0) cs).2) := by
  rw [splitFrom, if_pos ⟨rfl, rfl⟩]

theorem splitFrom_whole : ∀ {s : SplitState} {p : List Char}, Whole s p → splitFrom s p = (p, [])
  | _, [], _ => rfl
  | s, c :: p, whole => by rw [splitFrom_cons whole.1, splitFrom_whole whole.2]

theorem splitFrom_passes : ∀ {s : SplitState} {p : List Char}, Passes s p (.plain 0) → ∀ rest : List Char,
    splitFrom s (p ++ ',' :: rest) = (p, (splitFrom (.plain 0) rest).1 :: (splitFrom (.plain 0) rest).2)
  | s, [], passes, rest => by
    obtain rfl : s = .plain 0 := passes.ends
    exact splitFrom_comma rest
  | s, c :: p, passes, rest => by
    rw [List.cons_append, splitFrom_cons passes.whole.1, splitFrom_passes ⟨passes.whole.2, passes.ends⟩ rest]

/-- Pieces that lie apart are found again. -/
theorem splitFrom_intercalate : ∀ {ps : List (List Char)} {s : SplitState} {p : List Char}, Apart s p ps →
    splitFrom s ([','].intercalate (p :: ps)) = (p, ps)
  | [], s, p, whole => by rw [List.intercalate_singleton, splitFrom_whole whole]
  | q :: ps, s, p, ⟨passes, others⟩ => by
    rw [List.intercalate_cons_cons, List.append_assoc, List.singleton_append, splitFrom_passes passes,
      splitFrom_intercalate others]

/-- The pieces that are found lie apart, and nothing of the text is lost. -/
theorem splitFrom_apart : ∀ (s : SplitState) (cs : List Char), Apart s (splitFrom s cs).1 (splitFrom s cs).2 ∧
    [','].intercalate ((splitFrom s cs).1 :: (splitFrom s cs).2) = cs
  | s, [] => ⟨trivial, rfl⟩
  | s, c :: cs => by
    by_cases comma : s = .plain 0 ∧ c = ','
    · obtain ⟨rfl, rfl⟩ := comma
      obtain ⟨apart, joined⟩ := splitFrom_apart (.plain 0) cs
      rw [splitFrom_comma]
      refine ⟨⟨.nothing _, apart⟩, ?_⟩
      rw [List.intercalate_cons_cons, joined]
      rfl
    · obtain ⟨apart, joined⟩ := splitFrom_apart (s.next c) cs
      rw [splitFrom_cons comma]
      generalize splitFrom (s.next c) cs = pieces at apart joined
      obtain ⟨p, ps⟩ := pieces
      cases ps with
      | nil => exact ⟨⟨comma, apart⟩, by rw [← joined, List.intercalate_singleton, List.intercalate_singleton]⟩
      | cons q ps =>
        refine ⟨⟨.cons comma apart.1, apart.2⟩, ?_⟩
        rw [← joined, List.intercalate_cons_cons, List.intercalate_cons_cons]
        rfl

/-! ## The call around the arguments -/

/-- The dotted path of a call. -/
structure Path where
  names : List String
  letters : ∀ name ∈ names, ∀ c ∈ name.toList, Text.isAsciiAlnum c = true ∨ c = '_'
  written : ".".intercalate names ≠ ""

/-- A call as it is written, with its arguments as they are written. -/
def callText (path : Path) (args : List (List Char)) : String :=
  (DataCall.mk path.names []).fullPath ++ "(" ++ .ofList ([','].intercalate args) ++ ")"

namespace Path
variable (path : Path)

def chars : List Char := ['.'].intercalate (path.names.map String.toList)

theorem callText_eq (args : List (List Char)) : (callText path args).toList =
    root.toList ++ ['.'] ++ (path.chars ++ '(' :: ([','].intercalate args ++ [')'])) := by
  unfold callText fullPath key chars
  rw [← show ".".toList = ['.'] from rfl, ← String.toList_intercalate]
  simp [ToString.toString]

theorem chars_ne_nil : path.chars ≠ [] := by
  intro nothing
  apply path.written
  rw [← String.toList_inj, String.toList_intercalate]
  exact nothing

theorem isPathChar_of_mem {c : Char} (member : c ∈ path.chars) : isPathChar c = true := by
  rcases Text.mem_of_mem_intercalate member with dot | ⟨name, inside, letter⟩
  · rw [List.mem_singleton.mp dot]
    decide
  · obtain ⟨n, named, rfl⟩ := List.mem_map.mp inside
    rcases path.letters n named c letter with alnum | rfl
    · rw [isPathChar, alnum]
      rfl
    · decide

theorem splitAll_chars : (Text.splitAll '.' path.chars).map String.ofList = path.names := by
  have dotless : ∀ name ∈ path.names.map String.toList, '.' ∉ name := by
    intro name member dot
    obtain ⟨n, named, rfl⟩ := List.mem_map.mp member
    rcases path.letters n named '.' dot with alnum | score
    · exact absurd alnum (by decide)
    · exact absurd score (by decide)
  have same : (path.names.map String.toList).map String.ofList = path.names := by simp [Function.comp_def]
  unfold chars
  cases named : path.names.map String.toList with
  | nil => exact absurd (by rw [chars, named]; rfl) path.chars_ne_nil
  | cons name names =>
    rw [named] at dotless same
    rw [Text.splitAll_intercalate dotless, same]

theorem split?_callText (args : List (List Char)) :
    split? (callText path args).toList = some (path.chars, [','].intercalate args) := by
  have untrimmed : Text.trimChars (callText path args).toList = (callText path args).toList := by
    apply Text.trimChars_self
    · exact ⟨'f', _, path.callText_eq args, by decide⟩
    · exact ⟨root.toList ++ ['.'] ++ (path.chars ++ '(' :: [','].intercalate args), ')',
        by simp [callText_eq, List.append_assoc], by decide⟩
  have stop : ∀ c ∈ ('(' :: ([','].intercalate args ++ [')'])).head?, isPathChar c = false := by
    rintro _ ⟨⟩
    decide
  obtain ⟨run, tail⟩ := Text.run_stops (fun c member => path.isPathChar_of_mem (c := c) member) stop
  rw [split?, untrimmed, callText_eq, Text.after?_append]
  simp only [Option.bind_eq_bind, Option.bind_some, run, tail]
  simp [path.chars_ne_nil]

theorem parse_callText (args : List (List Char)) : parse (callText path args) =
    ((splitArgs ([','].intercalate args)).mapM coerce).map fun values => some ⟨path.names, values⟩ := by
  rw [parse, split?_callText]
  dsimp only
  rw [splitAll_chars]
  rfl

end Path

/-! ## Compact JSON -/

section
variable {d : Nat}

namespace Passes

theorem letter {c : Char} (backslash : c ≠ '\\') (quote : c ≠ '"') :
    Passes (.quoted '"' false d) [c] (.quoted '"' false d) := by
  refine inside ?_
  rw [SplitState.next, if_neg backslash, if_neg quote]
  exact nothing _

theorem unit {c : Char} {unit : List Char} (written : Json.Reader.Unit c unit) :
    Passes (.quoted '"' false d) unit (.quoted '"' false d) := by
  cases written with
  | plain quote backslash _ => exact letter backslash quote
  | short _ => exact inside (inside (nothing _))
  | @control a b _ hex =>
    obtain ⟨a_backslash, b_backslash⟩ := Json.Reader.hexQuad?_other hex (c := '\\') (by decide)
    obtain ⟨a_quote, b_quote⟩ := Json.Reader.hexQuad?_other hex (c := '"') (by decide)
    exact inside (inside (inside (inside ((letter a_backslash a_quote).append (letter b_backslash b_quote)))))

theorem string (s : String) : Passes (.plain d) (Json.stringChars s) (.plain d) := by
  have units : ∀ cs : List Char,
      Passes (.quoted '"' false d) (cs.flatMap Json.escapeChar) (.quoted '"' false d) := by
    intro cs
    induction cs with
    | nil => exact nothing _
    | cons c cs ih => exact (unit (Json.Reader.escapeChar_unit c)).append ih
  have quotes : Passes (.quoted '"' false d) ['"'] (.plain d) := inside (nothing _)
  exact cons (fun both => nomatch both.2) ((units s.toList).append quotes)

theorem sign {t : SplitState} {c : Char} {cs : List Char} (other : c ≠ ',')
    (rest : Passes ((SplitState.plain d).next c) cs t) : Passes (.plain d) (c :: cs) t :=
  cons (fun both => other both.2) rest

/-- A comma inside of brackets does not separate. -/
theorem comma {t : SplitState} {cs : List Char} (rest : Passes (.plain (d + 1)) cs t) :
    Passes (.plain (d + 1)) (',' :: cs) t :=
  cons (fun both => nomatch both.1) rest

end Passes

end

mutual
theorem passes_chars : ∀ (v : Json) (d : Nat), v.Integral → Passes (.plain d) v.chars (.plain d)
  | .null, _, _ => .still (by simp [Json.chars, splitSigns])
  | .bool true, _, _ => .still (by simp [Json.chars, splitSigns])
  | .bool false, _, _ => .still (by simp [Json.chars, splitSigns])
  | .int _, _, _ => .still_of_class (p := fun c => c == '-' || Text.isDigit c) (by decide) fun c member => by
    rcases Json.sign_of_integer member with rfl | digit
    · rfl
    · rw [digit, Bool.or_true]
  | .float _, _, integral => integral.elim
  | .str s, _, _ => .string s
  | .arr [], _, _ => .sign (by decide) (.sign (by decide) (.nothing _))
  | .arr (x :: xs), d, integral =>
    .sign (by decide) ((passes_chars x (d + 1) integral.1).append (passes_itemChars xs d integral.2))
  | .obj [], _, _ => .sign (by decide) (.sign (by decide) (.nothing _))
  | .obj ((k, v) :: fs), d, integral =>
    .sign (by decide) ((Passes.string k).append (.sign (by decide)
      ((passes_chars v (d + 1) integral.1).append (passes_fieldChars fs d integral.2))))
theorem passes_itemChars : ∀ (xs : List Json) (d : Nat), Json.IntegralItems xs →
    Passes (.plain (d + 1)) (Json.itemChars xs) (.plain d)
  | [], _, _ => .sign (by decide) (.nothing _)
  | x :: xs, d, integral =>
    .comma ((passes_chars x (d + 1) integral.1).append (passes_itemChars xs d integral.2))
theorem passes_fieldChars : ∀ (fs : List (String × Json)) (d : Nat), Json.IntegralFields fs →
    Passes (.plain (d + 1)) (Json.fieldChars fs) (.plain d)
  | [], _, _ => .sign (by decide) (.nothing _)
  | (k, v) :: fs, d, integral =>
    .comma ((Passes.string k).append (.sign (by decide)
      ((passes_chars v (d + 1) integral.1).append (passes_fieldChars fs d integral.2))))
end

/-! ## Arguments that are read -/

section
variable {l : Json.Spacing} {name : String → List Char} {v : Json}

theorem write_begins (bracketed : v.Bracketed) :
    ∃ c more, Json.write l name v = c :: more ∧ Text.isBlank c = false := by
  obtain ⟨c, more, first, sign⟩ := Json.write_first l name bracketed
  exact ⟨c, more, first, by rcases sign with rfl | rfl <;> decide⟩

theorem write_ends (bracketed : v.Bracketed) :
    ∃ front c, Json.write l name v = front ++ [c] ∧ Text.isBlank c = false := by
  obtain ⟨front, c, last, sign⟩ := Json.write_last l name bracketed
  exact ⟨front, c, last, by rcases sign with rfl | rfl <;> decide⟩

/-- A written array or object is read as strict JSON first, then as loose JSON. -/
theorem coerce_write (bracketed : v.Bracketed) : coerce (Json.write l name v) =
    match Json.parse (.ofList (Json.write l name v)) with
    | .ok v => .ok v
    | .error _ =>
      match Json.parse (.ofList (tighten (Json.write l name v))) with
      | .ok v => .ok v
      | .error e => .error (.mistake (.argument (.ofList (Json.write l name v)) e)) := by
  have trimmed : Text.trimChars (Json.write l name v) = Json.write l name v :=
    Text.trimChars_self (write_begins bracketed) (write_ends bracketed)
  have first : (Json.write l name v).head? = some '{' ∨ (Json.write l name v).head? = some '[' := by
    obtain ⟨c, more, first, sign⟩ := Json.write_first l name bracketed
    rw [first]
    rcases sign with rfl | rfl
    · exact .inr rfl
    · exact .inl rfl
  rw [coerce, trimmed]
  exact if_pos first

theorem coerce_chars (bracketed : v.Bracketed) (readable : v.Readable) : coerce v.chars = .ok v := by
  rw [← Json.write_compact, coerce_write bracketed, Json.parse_write .compact readable]

end

theorem tighten_first {c : Char} (sign : c = '[' ∨ c = '{') (cs : List Char) :
    ∃ more, tighten (c :: cs) = c :: more := by
  rcases sign with rfl | rfl
  · refine ⟨quoteKeys .outside (cs.map fun c => if c = '\'' then '"' else c), ?_⟩
    rw [tighten, List.map_cons, quoteKeys]
    · rfl
    · simp
    · simp
  · refine ⟨quoteKeys .beforeKey (cs.map fun c => if c = '\'' then '"' else c), ?_⟩
    rw [tighten, List.map_cons, quoteKeys]
    · rfl
    · simp
    · simp

/-- An argument that begins with a bracket is read as an array or an object, strict or loose. -/
theorem bracketed_of_coerce {cs : List Char} {v : Json}
    (first : (Text.trimChars cs).head? = some '{' ∨ (Text.trimChars cs).head? = some '[') (read : coerce cs = .ok v) :
    v.Bracketed := by
  rw [coerce, if_pos first] at read
  generalize Text.trimChars cs = trimmed at first read
  cases trimmed with
  | nil => simp at first
  | cons c more =>
    have sign : c = '[' ∨ c = '{' := by simpa [or_comm] using first
    split at read
    · rename_i strict
      cases read
      exact Json.bracketed_of_parse sign strict
    split at read
    · rename_i loose
      cases read
      obtain ⟨rest, tight⟩ := tighten_first sign more
      rw [tight] at loose
      exact Json.bracketed_of_parse sign loose
    · cases read

theorem mapM_map_ok {α : Type} {f : List Char → Except Failure Json} {text : α → List Char} {value : α → Json} :
    ∀ {xs : List α}, (∀ x ∈ xs, f (text x) = .ok (value x)) → (xs.map text).mapM f = .ok (xs.map value)
  | [], _ => rfl
  | x :: xs, each => by
    rw [List.map_cons, List.mapM_cons, each x List.mem_cons_self,
      mapM_map_ok fun y member => each y (List.mem_cons_of_mem x member)]
    rfl

/-- Pieces that lie apart are the arguments, without the blanks around them. -/
theorem splitArgs_intercalate {p : List Char} {ps : List (List Char)} (apart : Apart (.plain 0) p ps)
    (some_ : (p :: ps).map Text.trimChars ≠ [[]]) :
    splitArgs ([','].intercalate (p :: ps)) = (p :: ps).map Text.trimChars := by
  rw [splitArgs, splitFrom_intercalate apart]
  exact if_neg some_

/-- A JSON array or object as it is written among arguments, with blanks around it. -/
structure Argument where
  before : List Char
  value : Json
  behind : List Char
  blank : ∀ c ∈ before ++ behind, Text.isBlank c = true
  bracketed : value.Bracketed
  readable : value.Readable

namespace Argument

def text (a : Argument) : List Char := a.before ++ (a.value.chars ++ a.behind)

theorem trim_text (a : Argument) : Text.trimChars a.text = a.value.chars := by
  rw [text, ← Json.write_compact]
  exact Text.trimChars_around (fun c member => a.blank c (List.mem_append_left _ member))
    (fun c member => a.blank c (List.mem_append_right _ member)) (write_begins a.bracketed) (write_ends a.bracketed)

theorem passes_text (a : Argument) : Passes (.plain 0) a.text (.plain 0) := by
  have dull : splitSigns.all (!Text.isBlank ·) = true := by decide
  have before : Passes (.plain 0) a.before (.plain 0) :=
    .still_of_class dull fun c member => a.blank c (List.mem_append_left _ member)
  have behind : Passes (.plain 0) a.behind (.plain 0) :=
    .still_of_class dull fun c member => a.blank c (List.mem_append_right _ member)
  exact before.append ((passes_chars a.value 0 a.readable.integral).append behind)

theorem apart_texts : ∀ (as : List Argument) (a : Argument), Apart (.plain 0) a.text (as.map text)
  | [], a => a.passes_text.whole
  | b :: as, a => ⟨a.passes_text, apart_texts as b⟩

theorem splitArgs_texts (as : List Argument) :
    splitArgs ([','].intercalate (as.map text)) = as.map (·.value.chars) := by
  cases as with
  | nil => rfl
  | cons a as =>
    have trimmed : ((a :: as).map text).map Text.trimChars = (a :: as).map (·.value.chars) := by
      rw [List.map_map]
      exact List.map_congr_left fun b _ => b.trim_text
    have some_ : ((a :: as).map text).map Text.trimChars ≠ [[]] := by
      obtain ⟨c, more, first, _⟩ := Json.write_first .compact Json.stringChars a.bracketed
      rw [trimmed, List.map_cons, ← Json.write_compact, first]
      simp
    rw [← trimmed]
    exact splitArgs_intercalate (apart_texts as a) some_

end Argument

/-- A call with arrays and objects for arguments is read back: its path, and the values in their order. -/
theorem parse_arguments (path : Path) (as : List Argument) :
    parse (callText path (as.map Argument.text)) = .ok (some ⟨path.names, as.map Argument.value⟩) := by
  have values : (as.map (·.value.chars)).mapM coerce = .ok (as.map Argument.value) :=
    mapM_map_ok fun a _ => coerce_chars a.bracketed a.readable
  rw [path.parse_callText, Argument.splitArgs_texts, values]
  rfl

def pickPath : Path := ⟨["helpers", "pick_1"], List.forall_mem_cons.mpr ⟨List.all_iff_forall_prop.mp (by decide),
  List.forall_mem_singleton.mpr (List.all_iff_forall_prop.mp (by decide))⟩, by decide⟩

/-- Brackets, quotes, commas and a backslash in the strings of an array, with a no-break space before the comma. -/
def pickedTexts : Argument where
  before := []
  value := .arr [.str "a\"], (b", .str "C:\\", .int (-7)]
  behind := ['\u00a0']
  blank := List.all_eq_true.mp (by decide)
  bracketed := trivial
  readable := ⟨⟨trivial, trivial, trivial, trivial⟩, ⟨trivial, trivial,
    show leastInt64 ≤ -7 ∧ (-7 : Int) < twoTo 64 by decide, trivial⟩, show 1 ≤ 127 by decide⟩

def pickedOptions : Argument where
  before := [' ', '\n']
  value := .obj [("of", .arr []), ("a, b", .obj [])]
  behind := []
  blank := List.all_eq_true.mp (by decide)
  bracketed := trivial
  readable := ⟨⟨show ["of", "a, b"].Nodup by decide, trivial, ⟨List.nodup_nil, trivial⟩, trivial⟩,
    ⟨trivial, trivial, trivial⟩, show 2 ≤ 127 by decide⟩

theorem picked_read : parse (callText pickPath [pickedTexts.text, pickedOptions.text]) =
    .ok (some ⟨["helpers", "pick_1"], [pickedTexts.value, pickedOptions.value]⟩) :=
  parse_arguments pickPath [pickedTexts, pickedOptions]

end PageSpec.Dynamic.DataCall
