import PageSpec.Proofs.Dynamic.Arguments
import PageSpec.Proofs.Text.Counting
/-!
Texts as arguments. A text is written between double quotes, each of its own double quotes behind a backslash.
The splitter takes any character behind a backslash as escaped, the reader of an argument a double quote only: the
reader finds every text again, and the splitter those alone that it passes.
-/
namespace PageSpec.Dynamic.DataCall

def escapeQuote (c : Char) : List Char := if c = '"' then ['\\', '"'] else [c]

/-- A text between double quotes, with its own double quotes escaped. -/
def quotedText (s : String) : List Char := '"' :: (s.toList.flatMap escapeQuote ++ ['"'])

/-! ## One argument -/

theorem escaped_head (cs : List Char) : (cs.flatMap escapeQuote).head? ≠ some '"' := by
  cases cs with
  | nil => simp
  | cons c cs =>
    rw [List.flatMap_cons, escapeQuote]
    by_cases quote : c = '"' <;> simp [quote]

/-- Nothing that was escaped is lost, and nothing else is taken for an escape. -/
theorem replacePair_escaped : ∀ cs : List Char, Text.replacePair '\\' '"' '"' (cs.flatMap escapeQuote) = cs
  | [] => rfl
  | c :: cs => by
    have later := replacePair_escaped cs
    rw [List.flatMap_cons, escapeQuote]
    by_cases quote : c = '"'
    · rw [if_pos quote, List.cons_append, List.singleton_append, Text.replacePair, if_pos ⟨rfl, rfl⟩, later, quote]
    · rw [if_neg quote, List.singleton_append, Text.replacePair_cons (escaped_head cs), later]

theorem trim_quotedText (s : String) : Text.trimChars (quotedText s) = quotedText s :=
  Text.trimChars_self ⟨'"', _, rfl, by decide⟩ ⟨'"' :: s.toList.flatMap escapeQuote, '"', rfl, by decide⟩

/-- A text that begins with a quote is no number. -/
theorem readNumber_quote (cs : List Char) : readNumber ('"' :: cs) = none := by
  have body : dropSign ('"' :: cs) = '"' :: cs := rfl
  unfold readNumber
  simp only [body]
  rw [List.takeWhile_cons_of_pos (by decide)]
  generalize List.takeWhile _ cs = mantissa
  have split : Text.splitOnce '.' ('"' :: mantissa) =
      (Text.splitOnce '.' mantissa).map fun parts => ('"' :: parts.1, parts.2) := rfl
  rw [split]
  -- What stands before a dot, or else the whole, begins with the quote.
  cases Text.splitOnce '.' mantissa with
  | none => exact if_pos rfl
  | some parts => exact if_pos rfl

/-- A text that begins with a quote is no word of JSON and no number. -/
theorem coerce_quote {cs : List Char} (trimmed : Text.trimChars ('"' :: cs) = '"' :: cs) : coerce ('"' :: cs) =
    .ok ((readQuoted '"' ('"' :: cs) <|> readQuoted '\'' ('"' :: cs)).getD (.str (.ofList ('"' :: cs)))) := by
  have other {word : String} (first : word.toList.head? ≠ some '"') :
      String.ofList (('"' :: cs).map Char.toLower) ≠ word := by
    rintro rfl
    rw [String.toList_ofList] at first
    exact first rfl
  rw [coerce, trimmed, if_neg (by simp), readNumber_quote]
  split
  · rename_i word
    exact absurd word (other (by decide))
  · rename_i word
    exact absurd word (other (by decide))
  · rename_i word
    exact absurd word (other (by decide))
  · rfl

theorem readQuoted_quotedText (s : String) : readQuoted '"' (quotedText s) = some (.str s) := by
  have inner : (s.toList.flatMap escapeQuote ++ ['"']).dropLast = s.toList.flatMap escapeQuote := by simp
  obtain ⟨b, more, rest⟩ : ∃ b more, s.toList.flatMap escapeQuote ++ ['"'] = b :: more :=
    List.exists_cons_of_ne_nil (by simp)
  have last : (b :: more).getLast? = some '"' := by rw [← rest]; simp
  rw [quotedText, rest, readQuoted, if_pos ⟨rfl, last⟩, ← rest, inner, replacePair_escaped, String.ofList_toList]

theorem coerce_quotedText (s : String) : coerce (quotedText s) = .ok (.str s) := by
  have read := coerce_quote (trim_quotedText s)
  rw [← quotedText, readQuoted_quotedText] at read
  exact read

/-! ## Commas -/

theorem readNumber_ne_text (cs : List Char) (s : String) : readNumber cs ≠ some (.str s) := by
  intro read
  unfold readNumber at read
  obtain ⟨_, number⟩ := Option.ite_none_left_eq_some.mp read
  rcases ite_eq_iff.mp number with ⟨_, integer⟩ | ⟨_, fraction⟩
  · cases integer
  · cases (Option.ite_none_right_eq_some.mp fraction).2

theorem readQuoted_eq_some {q : Char} {cs : List Char} {v : Json} (read : readQuoted q cs = some v) :
    ∃ inner, cs = q :: (inner ++ [q]) ∧ v = .str (.ofList (Text.replacePair '\\' q q inner)) := by
  unfold readQuoted at read
  split at read
  · rename_i a b more
    split at read
    · rename_i quotes
      obtain ⟨rfl, last⟩ := quotes
      cases read
      obtain ⟨inner, whole⟩ := List.getLast?_eq_some_iff.mp last
      exact ⟨inner, by rw [whole], by rw [whole, List.dropLast_concat]⟩
    · cases read
  · cases read

theorem count_readQuoted {q : Char} (quote : ',' ≠ q) {cs : List Char} {s : String}
    (read : readQuoted q cs = some (.str s)) : s.toList.count ',' = cs.count ',' := by
  obtain ⟨inner, rfl, text⟩ := readQuoted_eq_some read
  cases text
  rw [String.toList_ofList, Text.count_replacePair ⟨by decide, quote, quote⟩]
  simp [List.count_append, quote.symm]

/-- An argument that is read as a text has the commas of that text. -/
theorem count_coerce {cs : List Char} {s : String} (read : coerce cs = .ok (.str s)) :
    s.toList.count ',' = cs.count ',' := by
  rw [← Text.count_trimChars (show Text.isBlank ',' = false by decide) cs]
  by_cases first : (Text.trimChars cs).head? = some '{' ∨ (Text.trimChars cs).head? = some '['
  · exact (bracketed_of_coerce first read).elim
  rw [coerce, if_neg first] at read
  split at read
  · cases read
  · cases read
  · cases read
  · cases number : readNumber (Text.trimChars cs) with
    | some v =>
      rw [number] at read
      cases Except.ok.inj read
      exact absurd number (readNumber_ne_text _ s)
    | none =>
      rw [number] at read
      cases double : readQuoted '"' (Text.trimChars cs) with
      | some v =>
        rw [double] at read
        cases Except.ok.inj read
        exact count_readQuoted (by decide) double
      | none =>
        rw [double] at read
        cases single : readQuoted '\'' (Text.trimChars cs) with
        | some v =>
          rw [single] at read
          cases Except.ok.inj read
          exact count_readQuoted (by decide) single
        | none =>
          rw [single] at read
          cases Except.ok.inj read
          rw [String.toList_ofList]

theorem count_quotedText (s : String) : (quotedText s).count ',' = s.toList.count ',' := by
  have inner := congrArg (List.count ',') (replacePair_escaped s.toList)
  rw [Text.count_replacePair (by decide)] at inner
  simp [quotedText, List.count_append, inner]

/-! ## Lists of texts -/

/-- A call with texts for arguments is read back: its path, and the texts in their order. -/
def KeepsTexts (path : Path) (ss : List String) : Prop :=
  parse (callText path (ss.map quotedText)) = .ok (some ⟨path.names, ss.map .str⟩)

/-- Run over each written text by itself, the splitter meets no comma outside quotes, and behind each but the last
it stands outside quotes and brackets. -/
structure Separable (ss : List String) : Prop where
  whole : ∀ s ∈ ss, Whole (.plain 0) (quotedText s)
  ends : ∀ s ∈ ss.dropLast, after (.plain 0) (quotedText s) = .plain 0

theorem separable_cons_iff {s t : String} {ss : List String} : Separable (s :: t :: ss) ↔
    Passes (.plain 0) (quotedText s) (.plain 0) ∧ Separable (t :: ss) := by
  constructor
  · rintro ⟨whole, ends⟩
    exact ⟨⟨whole s List.mem_cons_self, ends s List.mem_cons_self⟩,
      fun u member => whole u (List.mem_cons_of_mem s member),
      fun u member => ends u (List.mem_cons_of_mem s member)⟩
  · rintro ⟨⟨whole, ends⟩, others⟩
    exact ⟨List.forall_mem_cons.mpr ⟨whole, others.whole⟩, List.forall_mem_cons.mpr ⟨ends, others.ends⟩⟩

theorem apart_iff : ∀ {s : String} {ss : List String},
    Apart (.plain 0) (quotedText s) (ss.map quotedText) ↔ Separable (s :: ss)
  | s, [] => ⟨fun whole => ⟨List.forall_mem_singleton.mpr whole, nofun⟩,
      fun separable => separable.whole s List.mem_cons_self⟩
  | s, t :: ss => by
    rw [separable_cons_iff, ← apart_iff]
    rfl

theorem counts_of_mapM : ∀ {ps : List (List Char)} {ss : List String}, ps.mapM coerce = .ok (ss.map .str) →
    ps.map (List.count ',') = ss.map fun s => s.toList.count ','
  | [], ss, read => by
    cases ss with
    | nil => rfl
    | cons s ss => cases read
  | p :: ps, ss, read => by
    rw [List.mapM_cons] at read
    obtain ⟨v, first, more⟩ := ok_of_bind read
    obtain ⟨vs, others, both⟩ := ok_of_bind more
    cases ss with
    | nil => cases both
    | cons s ss =>
      obtain ⟨rfl, rfl⟩ := List.cons.inj (Except.ok.inj both)
      rw [List.map_cons, List.map_cons, counts_of_mapM others, count_coerce first]

theorem separable_of_keepsTexts {path : Path} {ss : List String} (kept : KeepsTexts path ss) : Separable ss := by
  cases ss with
  | nil => exact ⟨nofun, nofun⟩
  | cons s ss =>
    rw [KeepsTexts, path.parse_callText] at kept
    obtain ⟨values, read, both⟩ := ok_of_map kept
    cases both
    obtain ⟨apart, joined⟩ := splitFrom_apart (.plain 0) ([','].intercalate ((s :: ss).map quotedText))
    rw [splitArgs] at read
    generalize splitFrom (.plain 0) ([','].intercalate ((s :: ss).map quotedText)) = pieces at read apart joined
    obtain ⟨p, ps⟩ := pieces
    dsimp only at read apart joined
    split at read
    · cases read
    · have counts := counts_of_mapM read
      have same : (p :: ps).map (List.count ',') = ((s :: ss).map quotedText).map (List.count ',') := calc
        _ = ((p :: ps).map Text.trimChars).map (List.count ',') := by
          rw [List.map_map]
          exact List.map_congr_left fun q _ => (Text.count_trimChars (by decide) q).symm
        _ = (s :: ss).map fun t => t.toList.count ',' := counts
        _ = ((s :: ss).map quotedText).map (List.count ',') := by
          rw [List.map_map]
          exact List.map_congr_left fun t _ => (count_quotedText t).symm
      obtain ⟨rfl, rfl⟩ := List.cons.inj (Text.intercalate_inj_of_count same joined)
      exact apart_iff.mp apart

theorem keepsTexts_of_separable (path : Path) {ss : List String} (separable : Separable ss) : KeepsTexts path ss := by
  have values : (ss.map quotedText).mapM coerce = .ok (ss.map .str) := mapM_map_ok fun s _ => coerce_quotedText s
  have split : splitArgs ([','].intercalate (ss.map quotedText)) = ss.map quotedText := by
    cases ss with
    | nil => rfl
    | cons s ss =>
      have trimmed : ((s :: ss).map quotedText).map Text.trimChars = (s :: ss).map quotedText := by
        rw [List.map_map]
        exact List.map_congr_left fun t _ => trim_quotedText t
      have pieces := splitArgs_intercalate (apart_iff.mpr separable)
      rw [← List.map_cons, trimmed] at pieces
      exact pieces (by simp [quotedText])
  rw [KeepsTexts, path.parse_callText, split, values]
  rfl

/-- Texts between double quotes are read back exactly where the splitter passes each of them up to the comma behind
it. -/
theorem keepsTexts_iff (path : Path) (ss : List String) : KeepsTexts path ss ↔ Separable ss :=
  ⟨separable_of_keepsTexts, keepsTexts_of_separable path⟩

/-! ## Backslashes in pairs -/

/-- Every double quote of a text, and its end, stands behind an even number of backslashes. Whether the number so
far is odd is carried along. -/
def Paired (odd : Bool) : List Char → Prop
  | [] => odd = false
  | c :: cs => if c = '"' then odd = false ∧ Paired false cs else Paired (c == '\\' && !odd) cs

theorem passes_paired : ∀ {cs : List Char} {odd : Bool}, Paired odd cs →
    Passes (.quoted '"' odd 0) (cs.flatMap escapeQuote ++ ['"']) (.plain 0)
  | [], odd, paired => by
    obtain rfl : odd = false := paired
    exact .inside (.nothing _)
  | c :: cs, odd, paired => by
    rw [Paired] at paired
    rw [List.flatMap_cons, escapeQuote]
    by_cases quote : c = '"'
    · rw [if_pos quote] at paired ⊢
      obtain ⟨rfl, later⟩ := paired
      exact .inside (.inside (passes_paired later))
    · rw [if_neg quote] at paired ⊢
      have next : (SplitState.quoted '"' odd 0).next c = .quoted '"' (c == '\\' && !odd) 0 := by
        cases odd with
        | true => simp [SplitState.next]
        | false => by_cases backslash : c = '\\' <;> simp [SplitState.next, quote, backslash]
      refine .inside ?_
      rw [next]
      exact passes_paired paired

theorem separable_of_paired {ss : List String} (paired : ∀ s ∈ ss, Paired false s.toList) : Separable ss := by
  have passes {s : String} (member : s ∈ ss) : Passes (.plain 0) (quotedText s) (.plain 0) :=
    .cons (fun both => nomatch both.2) (passes_paired (paired s member))
  exact ⟨fun s member => (passes member).whole, fun s member => (passes (List.dropLast_subset _ member)).ends⟩

/-- Backslashes in a text do no harm as long as they come in pairs before quotes and at its end. -/
theorem keepsTexts_of_paired (path : Path) {ss : List String} (paired : ∀ s ∈ ss, Paired false s.toList) :
    KeepsTexts path ss :=
  keepsTexts_of_separable path (separable_of_paired paired)

/-! ## A backslash at the end -/

def folderPath : Path := ⟨["folder"],
  List.forall_mem_singleton.mpr (List.all_iff_forall_prop.mp (by decide)), by decide⟩

/-- Behind a text that ends with a backslash the comma is not seen, and two texts become one. -/
theorem trailing_backslash_merges :
    parse (callText folderPath (["C:\\", "b"].map quotedText)) = .ok (some ⟨["folder"], [.str "C:\",\"b"]⟩) ∧
      ¬ KeepsTexts folderPath ["C:\\", "b"] := by
  have read : parse (callText folderPath (["C:\\", "b"].map quotedText)) =
    .ok (some ⟨["folder"], [.str "C:\",\"b"]⟩) := by rfl
  refine ⟨read, ?_⟩
  intro kept
  rw [KeepsTexts, read] at kept
  simp at kept

/-- Apostrophes, commas, brackets, escaped quotes and backslashes before letters. -/
theorem separable_texts_kept : KeepsTexts folderPath ["it's", "C:\\dir, (x", "say \"yes\", twice", ""] := by
  refine (keepsTexts_iff folderPath _).mpr ⟨?_, ?_⟩
  · decide
  · decide

end PageSpec.Dynamic.DataCall
