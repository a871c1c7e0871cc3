import PageSpec.Proofs.Dynamic.Arguments
import PageSpec.Proofs.Text.Classes
/-!
Bare names in written objects. Where the reader of loose JSON expects a name, an identifier before a colon gets
quotes; words that stand for values, numbers and whatever is inside a string stay as they are. A value written with
bare names thus becomes the value written with quoted ones.
-/
namespace PageSpec.Dynamic.DataCall

/-! ## Signs before names get their quotes -/

theorem isKeyStart_low {c : Char} (low : c.toNat < 65) (dollar : c ≠ '$') : isKeyStart c = false := by
  have score : c ≠ '_' := by
    rintro rfl
    exact absurd low (by decide)
  simp [isKeyStart, Text.isLetter_low low, dollar, score]

theorem isKeyStart_blank {c : Char} (blank : Text.isBlank c = true) : isKeyStart c = false := by
  have score : c ≠ '_' := Text.ne_of_class blank (by decide)
  have dollar : c ≠ '$' := Text.ne_of_class blank (by decide)
  simp [isKeyStart, Text.isLetter_blank blank, dollar, score]

theorem isBlank_of_isSpace {c : Char} (space : Json.Reader.isSpace c = true) : Text.isBlank c = true := by
  unfold Json.Reader.isSpace at space
  simp only [Bool.or_eq_true, decide_eq_true_eq] at space
  rcases space with ((rfl | rfl) | rfl) | rfl <;> decide

section
variable {s : LooseState} {c : Char}

/-- What happens to a sign outside quotes. -/
theorem quoteKeys_open (open_ : ∀ escaped, s ≠ .inside escaped) (cs : List Char) : quoteKeys s (c :: cs) =
    if c = '"' then c :: quoteKeys (.inside false) cs
    else if c = '{' ∨ c = ',' then c :: quoteKeys .beforeKey cs
    else if Text.isBlank c then c :: quoteKeys s cs
    else if s = .beforeKey ∧ isKeyStart c then
      (if (Text.trimStart (cs.dropWhile isKeyChar)).head? = some ':' then
        '"' :: (c :: cs.takeWhile isKeyChar ++ ['"']) else c :: cs.takeWhile isKeyChar) ++
        quoteKeys .outside (cs.dropWhile isKeyChar)
    else c :: quoteKeys .outside cs := by
  rw [quoteKeys]
  · exact open_ true
  · exact open_ false

theorem quoteKeys_blank (open_ : ∀ escaped, s ≠ .inside escaped) (blank : Text.isBlank c = true) (cs : List Char) :
    quoteKeys s (c :: cs) = c :: quoteKeys s cs := by
  have quote : c ≠ '"' := Text.ne_of_class blank (by decide)
  have sign : ¬ (c = '{' ∨ c = ',') :=
    not_or.mpr ⟨Text.ne_of_class blank (by decide), Text.ne_of_class blank (by decide)⟩
  rw [quoteKeys_open open_, if_neg quote, if_neg sign, if_pos blank]

theorem quoteKeys_blanks (open_ : ∀ escaped, s ≠ .inside escaped) {blanks : List Char}
    (blank : ∀ c ∈ blanks, Json.Reader.isSpace c = true) (cs : List Char) :
    quoteKeys s (blanks ++ cs) = blanks ++ quoteKeys s cs := by
  induction blanks with
  | nil => rfl
  | cons c blanks ih =>
    rw [List.cons_append, quoteKeys_blank open_ (isBlank_of_isSpace (blank c List.mem_cons_self)),
      ih fun d member => blank d (List.mem_cons_of_mem c member), List.cons_append]

/-- Signs that open nothing. -/
def Dull (c : Char) : Prop := c ≠ '"' ∧ ¬ (c = '{' ∨ c = ',') ∧ Text.isBlank c = false

instance (c : Char) : Decidable (Dull c) :=
  inferInstanceAs (Decidable (c ≠ '"' ∧ ¬ (c = '{' ∨ c = ',') ∧ Text.isBlank c = false))

theorem quoteKeys_sign (open_ : ∀ escaped, s ≠ .inside escaped) (dull : Dull c)
    (name : s = .beforeKey → isKeyStart c = false) (cs : List Char) :
    quoteKeys s (c :: cs) = c :: quoteKeys .outside cs := by
  obtain ⟨quote, sign, shown⟩ := dull
  have none_ : ¬ (s = .beforeKey ∧ isKeyStart c = true) := fun both => Bool.eq_false_iff.mp (name both.1) both.2
  rw [quoteKeys_open open_, if_neg quote, if_neg sign, if_neg (Bool.eq_false_iff.mp shown), if_neg none_]

/-! ## Identifiers -/

/-- A name of letters, digits, low lines and dollars that does not begin with a digit. -/
structure Identifier (name : String) : Prop where
  begins : name.toList.head?.any isKeyStart = true
  goes : ∀ c ∈ name.toList, isKeyChar c = true

theorem unescaped_keyChar (key : isKeyChar c = true) : Json.Reader.Unescaped c := by
  apply Json.Reader.Unescaped.of_other
  · by_contra low
    have dollar : c ≠ '$' := by
      rintro rfl
      exact low (by decide)
    have score : c ≠ '_' := by
      rintro rfl
      exact low (by decide)
    have letter := Text.isLetterOrDigit_low (show c.toNat < 48 by omega)
    simp [isKeyChar, letter, dollar, score] at key
  · intro listed
    have others : ∀ d ∈ ['"', '\\', '/', '\x08', '\x0c', '\n', '\r', '\t'], isKeyChar d = false :=
      List.all_iff_forall_prop.mp (by decide)
    exact Text.ne_of_class key (others c listed) rfl

/-- The first sign of an identifier, and the others. -/
theorem Identifier.letters {name : String} (identifier : Identifier name) :
    ∃ c run, name.toList = c :: run ∧ isKeyStart c = true ∧ ∀ d ∈ run, isKeyChar d = true := by
  obtain ⟨begins, goes⟩ := identifier
  cases letters : name.toList with
  | nil =>
    rw [letters] at begins
    cases begins
  | cons c run =>
    rw [letters] at begins goes
    exact ⟨c, run, rfl, begins, fun d member => goes d (List.mem_cons_of_mem c member)⟩

theorem stringChars_identifier {name : String} (identifier : Identifier name) :
    Json.stringChars name = '"' :: (name.toList ++ ['"']) := by
  have same : ∀ {cs : List Char}, (∀ c ∈ cs, isKeyChar c = true) → cs.flatMap Json.escapeChar = cs := by
    intro cs
    induction cs with
    | nil => exact fun _ => rfl
    | cons c cs ih =>
      intro goes
      rw [List.flatMap_cons, (unescaped_keyChar (goes c List.mem_cons_self)).escapeChar,
        ih fun d member => goes d (List.mem_cons_of_mem c member)]
      rfl
  rw [Json.stringChars, same identifier.goes]

theorem isKeyChar_of_isKeyStart (start : isKeyStart c = true) : isKeyChar c = true := by
  simp only [isKeyStart, isKeyChar, Text.isLetter, Text.isLetterOrDigit, Bool.or_eq_true] at start ⊢
  exact start.imp_left fun letter => letter.imp_left .inl

theorem isBlank_keyStart (start : isKeyStart c = true) : Text.isBlank c = false :=
  Bool.eq_false_iff.mpr fun blank => Bool.eq_false_iff.mp (isKeyStart_blank blank) start

theorem open_beforeKey : ∀ escaped, LooseState.beforeKey ≠ .inside escaped := nofun
theorem open_outside : ∀ escaped, LooseState.outside ≠ .inside escaped := nofun

/-- Where a name may come, a run of letters gets quotes if a colon is behind it. -/
theorem quoteKeys_run {name rest : List Char} (begins : isKeyStart c = true)
    (goes : ∀ d ∈ name, isKeyChar d = true) (stop : ∀ d ∈ rest.head?, isKeyChar d = false) :
    quoteKeys .beforeKey (c :: name ++ rest) =
      (if (Text.trimStart rest).head? = some ':' then '"' :: (c :: name ++ ['"']) else c :: name) ++
        quoteKeys .outside rest := by
  have quote : c ≠ '"' := Text.ne_of_class begins (by decide)
  have sign : ¬ (c = '{' ∨ c = ',') :=
    not_or.mpr ⟨Text.ne_of_class begins (by decide), Text.ne_of_class begins (by decide)⟩
  have shown : ¬ Text.isBlank c = true := Bool.eq_false_iff.mp (isBlank_keyStart begins)
  obtain ⟨run, tail⟩ := Text.run_stops goes stop
  rw [List.cons_append, quoteKeys_open open_beforeKey, if_neg quote, if_neg sign, if_neg shown,
    if_pos ⟨rfl, begins⟩, run, tail]

end

/-! ## Quoting the names of a written value -/

/-- What stands behind a written value: nothing, or a comma or a closing bracket behind blanks. -/
structure Behind (rest : List Char) : Prop where
  letterless : ∀ c ∈ rest.head?, isKeyChar c = false
  noColon : (Text.trimStart rest).head? ≠ some ':'

section
variable {s : LooseState} {c : Char} {blanks rest : List Char}

theorem isKeyChar_space (space : Json.Reader.isSpace c = true) : isKeyChar c = false := by
  unfold Json.Reader.isSpace at space
  simp only [Bool.or_eq_true, decide_eq_true_eq] at space
  rcases space with ((rfl | rfl) | rfl) | rfl <;> decide

theorem trimStart_blanks (blank : ∀ c ∈ blanks, Json.Reader.isSpace c = true) (cs : List Char) :
    Text.trimStart (blanks ++ cs) = Text.trimStart cs := by
  unfold Text.trimStart
  exact List.dropWhile_append_of_pos fun c member => isBlank_of_isSpace (blank c member)

theorem letterless_sign (blank : ∀ c ∈ blanks, Json.Reader.isSpace c = true) (sign : isKeyChar c = false)
    (cs : List Char) : ∀ d ∈ (blanks ++ c :: cs).head?, isKeyChar d = false := by
  cases blanks with
  | nil =>
    rintro _ ⟨⟩
    exact sign
  | cons d blanks =>
    rintro _ ⟨⟩
    exact isKeyChar_space (blank d List.mem_cons_self)

theorem behind_sign (blank : ∀ c ∈ blanks, Json.Reader.isSpace c = true) (sign : c = ',' ∨ c = ']' ∨ c = '}')
    (cs : List Char) : Behind (blanks ++ c :: cs) := by
  constructor
  · apply letterless_sign blank
    rcases sign with rfl | rfl | rfl <;> decide
  · rw [trimStart_blanks blank]
    rcases sign with rfl | rfl | rfl <;> simp [Text.trimStart_cons, Text.isBlank]

theorem behind_nil : Behind [] := ⟨nofun, nofun⟩

/-- A name gets its quotes, and what stands behind the colon is met as a value. -/
theorem quoteKeys_name {name : String} (identifier : Identifier name)
    (blank : ∀ c ∈ blanks, Json.Reader.isSpace c = true) (cs : List Char) :
    quoteKeys .beforeKey (name.toList ++ (blanks ++ ':' :: cs)) =
      Json.stringChars name ++ (blanks ++ ':' :: quoteKeys .outside cs) := by
  have quoted := stringChars_identifier identifier
  obtain ⟨c, run, letters, begins, goes⟩ := identifier.letters
  have colon : (Text.trimStart (blanks ++ ':' :: cs)).head? = some ':' := by
    rw [trimStart_blanks blank, Text.trimStart_cons (by decide)]
    rfl
  rw [quoted, letters, quoteKeys_run begins goes (letterless_sign blank (by decide) cs), if_pos colon,
    quoteKeys_blanks open_outside blank, quoteKeys_sign open_outside (by decide) nofun]

theorem quoteKeys_dull {cs : List Char} (dull : ∀ c ∈ cs, Dull c) (rest : List Char) :
    quoteKeys .outside (cs ++ rest) = cs ++ quoteKeys .outside rest := by
  induction cs with
  | nil => rfl
  | cons c cs ih =>
    rw [List.cons_append, quoteKeys_sign open_outside (dull c List.mem_cons_self) nofun,
      ih fun d member => dull d (List.mem_cons_of_mem c member), List.cons_append]

/-- A word that is no name stays without quotes. -/
theorem quoteKeys_word (open_ : ∀ escaped, s ≠ .inside escaped) {word : List Char} (begins : isKeyStart c = true)
    (goes : ∀ d ∈ word, isKeyChar d = true) (dull : ∀ d ∈ c :: word, Dull d) (behind : Behind rest) :
    quoteKeys s (c :: word ++ rest) = c :: word ++ quoteKeys .outside rest := by
  cases s with
  | outside => exact quoteKeys_dull dull rest
  | beforeKey => rw [quoteKeys_run begins goes behind.letterless, if_neg behind.noColon]
  | inside escaped => exact absurd rfl (open_ escaped)

theorem dull_digit (digit : Text.isDigit c = true) : Dull c ∧ isKeyStart c = false := by
  have other {d : Char} (no : Text.isDigit d = false) : c ≠ d := Text.ne_of_class digit no
  have size : 48 ≤ c.toNat ∧ c.toNat ≤ 57 := by
    rw [Text.isDigit_eq] at digit
    exact Char.isDigit_iff_toNat.mp digit
  have shown : Text.isBlank c = false := by
    simp only [Text.isBlank, Bool.or_eq_false_iff, Bool.and_eq_false_iff, decide_eq_false_iff_not, beq_eq_false_iff_ne]
    omega
  refine ⟨⟨other (by decide), ?_, shown⟩, isKeyStart_low (by omega) (other (by decide))⟩
  rintro (same | same)
  · exact other (show Text.isDigit '{' = false by decide) same
  · exact other (show Text.isDigit ',' = false by decide) same

theorem quoteKeys_integer (open_ : ∀ escaped, s ≠ .inside escaped) {n : Int} (integral : (Json.int n).Integral)
    (rest : List Char) :
    quoteKeys s (Json.chars (.int n) ++ rest) = Json.chars (.int n) ++ quoteKeys .outside rest := by
  have signs : ∀ c ∈ Json.chars (.int n), Dull c ∧ isKeyStart c = false := by
    intro c member
    rcases Json.sign_of_integer member with rfl | digit
    · decide
    · exact dull_digit digit
  obtain ⟨c, cs, written, _⟩ := Json.write_opens .compact Json.stringChars integral
  change Json.chars (.int n) = c :: cs at written
  rw [written] at signs ⊢
  obtain ⟨dull, start⟩ := signs c List.mem_cons_self
  rw [List.cons_append, quoteKeys_sign open_ dull fun _ => start,
    quoteKeys_dull fun d member => (signs d (List.mem_cons_of_mem c member)).1]
  rfl

theorem quoteKeys_unit {u : List Char} (written : Json.Reader.Unit c u) (rest : List Char) :
    quoteKeys (.inside false) (u ++ rest) = u ++ quoteKeys (.inside false) rest := by
  have letter {c : Char} (quote : c ≠ '"') (backslash : c ≠ '\\') (rest : List Char) :
      quoteKeys (.inside false) (c :: rest) = c :: quoteKeys (.inside false) rest := by
    rw [quoteKeys, if_neg backslash, if_neg quote]
  have escape (e : Char) (rest : List Char) :
      quoteKeys (.inside false) ('\\' :: e :: rest) = '\\' :: e :: quoteKeys (.inside false) rest := by
    rw [quoteKeys, if_pos rfl, quoteKeys]
  cases written with
  | plain quote backslash _ => exact letter quote backslash rest
  | short _ => exact escape _ rest
  | @control a b _ hex =>
    obtain ⟨a_backslash, b_backslash⟩ := Json.Reader.hexQuad?_other hex (c := '\\') (by decide)
    obtain ⟨a_quote, b_quote⟩ := Json.Reader.hexQuad?_other hex (c := '"') (by decide)
    simp only [List.cons_append, List.nil_append]
    rw [escape, letter (by decide) (by decide), letter (by decide) (by decide), letter a_quote a_backslash,
      letter b_quote b_backslash]

theorem quoteKeys_string (open_ : ∀ escaped, s ≠ .inside escaped) (t : String) (rest : List Char) :
    quoteKeys s (Json.stringChars t ++ rest) = Json.stringChars t ++ quoteKeys .outside rest := by
  have units : ∀ cs : List Char, quoteKeys (.inside false) (cs.flatMap Json.escapeChar ++ '"' :: rest) =
      cs.flatMap Json.escapeChar ++ '"' :: quoteKeys .outside rest := by
    intro cs
    induction cs with
    | nil =>
      rw [List.flatMap_nil, List.nil_append, List.nil_append, quoteKeys]
      rfl
    | cons c cs ih =>
      rw [List.flatMap_cons, List.append_assoc, quoteKeys_unit (Json.Reader.escapeChar_unit c), ih, List.append_assoc]
  rw [Json.stringChars, List.cons_append, quoteKeys_open open_, if_pos rfl, List.append_assoc, List.singleton_append,
    units]
  simp

end

/-! ## Whole values -/

mutual
/-- All names in a value are identifiers. -/
def BareNames : Json → Prop
  | .arr xs => BareItems xs
  | .obj fs => BareFields fs
  | _ => True
def BareItems : List Json → Prop
  | [] => True
  | x :: xs => BareNames x ∧ BareItems xs
def BareFields : List (String × Json) → Prop
  | [] => True
  | (k, v) :: fs => Identifier k ∧ BareNames v ∧ BareFields fs
end

section
variable (l : Json.Spacing)

theorem writeItems_behind (xs : List Json) (rest : List Char) :
    Behind (Json.writeItems l String.toList xs ++ rest) := by
  cases xs with
  | nil =>
    rw [Json.writeItems, List.append_assoc]
    exact behind_sign l.closing_blank (by decide) _
  | cons x xs =>
    rw [Json.writeItems, Json.Spacing.comma, List.append_assoc, List.append_assoc]
    exact behind_sign l.beforeComma_blank (by decide) _

theorem writeFields_behind (fs : Fields) (rest : List Char) :
    Behind (Json.writeFields l String.toList fs ++ rest) := by
  cases fs with
  | nil =>
    rw [Json.writeFields, List.append_assoc]
    exact behind_sign l.closing_blank (by decide) _
  | cons f fs =>
    obtain ⟨k, v⟩ := f
    rw [Json.writeFields, Json.Spacing.comma, List.append_assoc, List.append_assoc]
    exact behind_sign l.beforeComma_blank (by decide) _

theorem quoteKeys_comma (rest : List Char) :
    quoteKeys .outside (l.comma ++ rest) = l.comma ++ quoteKeys .beforeKey rest := by
  rw [Json.Spacing.comma, List.append_assoc, quoteKeys_blanks open_outside l.beforeComma_blank, List.cons_append,
    quoteKeys_open open_outside, if_neg (by decide), if_pos (by decide),
    quoteKeys_blanks open_beforeKey l.afterComma_blank, List.append_assoc, List.cons_append]

theorem quoteKeys_closing {c : Char} (dull : Dull c) (rest : List Char) :
    quoteKeys .outside (l.closing ++ c :: rest) = l.closing ++ c :: quoteKeys .outside rest := by
  rw [quoteKeys_blanks open_outside l.closing_blank, quoteKeys_sign open_outside dull nofun]

theorem quoteKeys_field {k : String} (identifier : Identifier k) (rest : List Char) :
    quoteKeys .beforeKey (k.toList ++ (l.colon ++ rest)) =
      Json.stringChars k ++ (l.colon ++ quoteKeys .outside rest) := by
  rw [Json.Spacing.colon, List.append_assoc, List.cons_append, quoteKeys_name identifier l.beforeColon_blank,
    quoteKeys_blanks open_outside l.afterColon_blank, List.append_assoc, List.cons_append]

end

mutual
theorem quoteKeys_write (l : Json.Spacing) : ∀ (v : Json) (s : LooseState) (rest : List Char), v.Integral →
    BareNames v → (∀ escaped, s ≠ .inside escaped) → Behind rest →
    quoteKeys s (Json.write l String.toList v ++ rest) = Json.write l Json.stringChars v ++ quoteKeys .outside rest
  | .null, _, _, _, _, open_, behind =>
    quoteKeys_word open_ (by decide) (List.all_eq_true.mp (by decide)) (List.all_iff_forall_prop.mp (by decide)) behind
  | .bool true, _, _, _, _, open_, behind =>
    quoteKeys_word open_ (by decide) (List.all_eq_true.mp (by decide)) (List.all_iff_forall_prop.mp (by decide)) behind
  | .bool false, _, _, _, _, open_, behind =>
    quoteKeys_word open_ (by decide) (List.all_eq_true.mp (by decide)) (List.all_iff_forall_prop.mp (by decide)) behind
  | .int _, _, rest, integral, _, open_, _ => quoteKeys_integer open_ integral rest
  | .float _, _, _, integral, _, _, _ => integral.elim
  | .str t, _, rest, _, _, open_, _ => quoteKeys_string open_ t rest
  | .arr [], s, rest, _, _, open_, _ => by
    rw [Json.write, Json.write, List.cons_append, quoteKeys_sign open_ (by decide) (fun _ => by decide),
      List.append_assoc, quoteKeys_blanks open_outside l.opened_blank, List.singleton_append,
      quoteKeys_sign open_outside (by decide) nofun]
    simp
  | .arr (x :: xs), s, rest, integral, bare, open_, _ => by
    rw [Json.write, Json.write, List.cons_append, quoteKeys_sign open_ (by decide) (fun _ => by decide),
      List.append_assoc, quoteKeys_blanks open_outside l.opened_blank, List.append_assoc,
      quoteKeys_write l x .outside _ integral.1 bare.1 open_outside (writeItems_behind l xs rest),
      quoteKeys_writeItems l xs rest integral.2 bare.2]
    simp
  | .obj [], s, rest, _, _, open_, _ => by
    rw [Json.write, Json.write, List.cons_append, quoteKeys_open open_, if_neg (by decide), if_pos (by decide),
      List.append_assoc, quoteKeys_blanks open_beforeKey l.opened_blank, List.singleton_append,
      quoteKeys_sign open_beforeKey (by decide) (fun _ => by decide)]
    simp
  | .obj ((k, v) :: fs), s, rest, integral, bare, open_, _ => by
    rw [Json.write, Json.write, List.cons_append, quoteKeys_open open_, if_neg (by decide), if_pos (by decide),
      List.append_assoc, quoteKeys_blanks open_beforeKey l.opened_blank, List.append_assoc, List.append_assoc,
      List.append_assoc, quoteKeys_field l bare.1,
      quoteKeys_write l v .outside _ integral.1 bare.2.1 open_outside (writeFields_behind l fs rest),
      quoteKeys_writeFields l fs rest integral.2 bare.2.2]
    simp
theorem quoteKeys_writeItems (l : Json.Spacing) : ∀ (xs : List Json) (rest : List Char), Json.IntegralItems xs →
    BareItems xs → quoteKeys .outside (Json.writeItems l String.toList xs ++ rest) =
      Json.writeItems l Json.stringChars xs ++ quoteKeys .outside rest
  | [], rest, _, _ => by
    rw [Json.writeItems, Json.writeItems, List.append_assoc, List.singleton_append, quoteKeys_closing l (by decide)]
    simp
  | x :: xs, rest, integral, bare => by
    rw [Json.writeItems, Json.writeItems, List.append_assoc, quoteKeys_comma, List.append_assoc,
      quoteKeys_write l x .beforeKey _ integral.1 bare.1 open_beforeKey (writeItems_behind l xs rest),
      quoteKeys_writeItems l xs rest integral.2 bare.2]
    simp
theorem quoteKeys_writeFields (l : Json.Spacing) : ∀ (fs : List (String × Json)) (rest : List Char),
    Json.IntegralFields fs → BareFields fs → quoteKeys .outside (Json.writeFields l String.toList fs ++ rest) =
      Json.writeFields l Json.stringChars fs ++ quoteKeys .outside rest
  | [], rest, _, _ => by
    rw [Json.writeFields, Json.writeFields, List.append_assoc, List.singleton_append, quoteKeys_closing l (by decide)]
    simp
  | (k, v) :: fs, rest, integral, bare => by
    rw [Json.writeFields, Json.writeFields, List.append_assoc, quoteKeys_comma, List.append_assoc, List.append_assoc,
      List.append_assoc, quoteKeys_field l bare.1,
      quoteKeys_write l v .outside _ integral.1 bare.2.1 open_outside (writeFields_behind l fs rest),
      quoteKeys_writeFields l fs rest integral.2 bare.2.2]
    simp
end

end PageSpec.Dynamic.DataCall
