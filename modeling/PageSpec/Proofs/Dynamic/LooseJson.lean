import PageSpec.Proofs.Dynamic.BareNames
/-!
Objects with bare names as arguments. Every apostrophe becomes a double quote before names get their quotes: an
object whose strings have no apostrophe is read as it was written, and no other one is.
-/
namespace PageSpec.Dynamic.DataCall

/-! ## Backslashes and apostrophes of a written value -/

section
open Json.Reader (Escaped Lacking)

/-- The backslashes of a text are those of written strings, and under a condition it has no apostrophe. -/
structure Clean (p : Prop) (cs : List Char) : Prop where
  escaped : ∀ {rest : List Char}, Escaped rest → Escaped (cs ++ rest)
  absent : p → '\'' ∉ cs

namespace Clean
variable {p q : Prop} {cs front back : List Char}

theorem append (first : Clean p front) (second : Clean p back) : Clean p (front ++ back) where
  escaped rest := by
    rw [List.append_assoc]
    exact first.escaped (second.escaped rest)
  absent holds member := (List.mem_append.mp member).elim (first.absent holds) (second.absent holds)

theorem imp (clean : Clean q cs) (weaker : p → q) : Clean p cs :=
  ⟨clean.escaped, fun holds => clean.absent (weaker holds)⟩

theorem free (plain : ∀ c ∈ cs, c ≠ '\\' ∧ c ≠ '\'') : Clean p cs where
  escaped rest := rest.append fun member => (plain _ member).1 rfl
  absent _ member := (plain _ member).2 rfl

theorem cons {c : Char} (plain : c ≠ '\\' ∧ c ≠ '\'') (rest : Clean p cs) : Clean p (c :: cs) :=
  append (free (List.forall_mem_singleton.mpr plain)) rest

theorem blanks (blank : ∀ c ∈ cs, Json.Reader.isSpace c = true) : Clean p cs :=
  free fun c member => ⟨Text.ne_of_class (blank c member) (by decide), Text.ne_of_class (blank c member) (by decide)⟩

theorem name {k : String} (identifier : Identifier k) : Clean p k.toList :=
  free fun c member =>
    ⟨Text.ne_of_class (identifier.goes c member) (by decide), Text.ne_of_class (identifier.goes c member) (by decide)⟩

theorem integer (n : Int) : Clean p (Json.chars (.int n)) := by
  apply free
  intro c member
  rcases Json.sign_of_integer member with rfl | digit
  · decide
  · exact ⟨Text.ne_of_class digit (by decide), Text.ne_of_class digit (by decide)⟩

theorem string (t : String) : Clean ('\'' ∉ t.toList) (Json.stringChars t) := by
  have unit {c : Char} {u : List Char} (written : Json.Reader.Unit c u) : Clean (c ≠ '\'') u := by
    refine ⟨fun rest => rest.unit written, fun other member => ?_⟩
    cases written with
    | plain _ _ _ => exact other (List.mem_singleton.mp member).symm
    | @short e names =>
      simp only [List.mem_cons, List.not_mem_nil, or_false] at member
      rcases member with same | same
      · cases same
      · rw [← same] at names
        cases names
    | @control a b _ hex =>
      obtain ⟨a_other, b_other⟩ := Json.Reader.hexQuad?_other hex (c := '\'') (by decide)
      simp [a_other.symm, b_other.symm] at member
  have units : ∀ cs : List Char, Clean ('\'' ∉ cs) (cs.flatMap Json.escapeChar) := by
    intro cs
    induction cs with
    | nil => exact free nofun
    | cons c cs ih =>
      refine ((unit (Json.Reader.escapeChar_unit c)).imp ?_).append (ih.imp ?_)
      · rintro absent rfl
        exact absent List.mem_cons_self
      · exact fun absent member => absent (List.mem_cons_of_mem c member)
  exact cons (by decide) ((units t.toList).append (cons (by decide) (free nofun)))

variable (l : Json.Spacing)

theorem comma : Clean p l.comma := append (blanks l.beforeComma_blank) (cons (by decide) (blanks l.afterComma_blank))
theorem colon : Clean p l.colon := append (blanks l.beforeColon_blank) (cons (by decide) (blanks l.afterColon_blank))

end Clean

mutual
theorem write_clean (l : Json.Spacing) : ∀ v : Json, v.Integral → BareNames v →
    Clean (v.Lacks '\'') (Json.write l String.toList v)
  | .null, _, _ => .free (show ∀ c ∈ ['n', 'u', 'l', 'l'], c ≠ '\\' ∧ c ≠ '\'' by simp)
  | .bool true, _, _ => .free (show ∀ c ∈ ['t', 'r', 'u', 'e'], c ≠ '\\' ∧ c ≠ '\'' by simp)
  | .bool false, _, _ => .free (show ∀ c ∈ ['f', 'a', 'l', 's', 'e'], c ≠ '\\' ∧ c ≠ '\'' by simp)
  | .int n, _, _ => .integer n
  | .float _, integral, _ => integral.elim
  | .str t, _, _ => .string t
  | .arr [], _, _ => .cons (by decide) (.append (.blanks l.opened_blank) (.free (by simp)))
  | .arr (x :: xs), integral, bare =>
    .cons (by decide) (.append (.blanks l.opened_blank) (.append
      ((write_clean l x integral.1 bare.1).imp And.left) ((writeItems_clean l xs integral.2 bare.2).imp And.right)))
  | .obj [], _, _ => .cons (by decide) (.append (.blanks l.opened_blank) (.free (by simp)))
  | .obj ((k, v) :: fs), integral, bare =>
    .cons (by decide) (.append (.blanks l.opened_blank) (.append (.name bare.1) (.append (.colon l) (.append
      ((write_clean l v integral.1 bare.2.1).imp And.left)
      ((writeFields_clean l fs integral.2 bare.2.2).imp And.right)))))
theorem writeItems_clean (l : Json.Spacing) : ∀ xs : List Json, Json.IntegralItems xs → BareItems xs →
    Clean (Json.LacksItems '\'' xs) (Json.writeItems l String.toList xs)
  | [], _, _ => .append (.blanks l.closing_blank) (.free (by simp))
  | x :: xs, integral, bare =>
    .append (.comma l) (.append
      ((write_clean l x integral.1 bare.1).imp And.left) ((writeItems_clean l xs integral.2 bare.2).imp And.right))
theorem writeFields_clean (l : Json.Spacing) : ∀ fs : List (String × Json), Json.IntegralFields fs → BareFields fs →
    Clean (Json.LacksFields '\'' fs) (Json.writeFields l String.toList fs)
  | [], _, _ => .append (.blanks l.closing_blank) (.free (by simp))
  | (k, v) :: fs, integral, bare =>
    .append (.comma l) (.append (.name bare.1) (.append (.colon l) (.append
      ((write_clean l v integral.1 bare.2.1).imp And.left)
      ((writeFields_clean l fs integral.2 bare.2.2).imp And.right))))
end

/-! ## Through the reader of loose JSON -/

/-- A double quote for an apostrophe. -/
def double (c : Char) : Char := if c = '\'' then '"' else c

theorem double_other {c : Char} (other : c ≠ '\'') : double c = c := if_neg other

theorem double_ne (c : Char) : double c ≠ '\'' := by
  unfold double
  by_cases single : c = '\''
  · rw [if_pos single]
    decide
  · rwa [if_neg single]

theorem double_ne_backslash {c : Char} (backslash : c ≠ '\\') : double c ≠ '\\' := by
  unfold double
  by_cases single : c = '\''
  · rw [if_pos single]
    decide
  · rwa [if_neg single]

theorem map_double_absent {cs : List Char} (absent : '\'' ∉ cs) : cs.map double = cs := by
  have same : ∀ c ∈ cs, double c = id c := by
    intro c member
    apply double_other
    rintro rfl
    exact absent member
  rw [List.map_congr_left same, List.map_id]

theorem escaped_map_double {cs : List Char} (escaped : Escaped cs) : Escaped (cs.map double) := by
  induction escaped with
  | nil => exact .nil
  | plain backslash _ ih => exact .plain (double_ne_backslash backslash) ih
  | @short c e cs names _ ih =>
    have other : double e = e := by
      apply double_other
      rintro rfl
      cases names
    rw [List.map_cons, List.map_cons, other]
    exact .short names ih
  | @control c a b cs low hex _ ih =>
    obtain ⟨a_other, b_other⟩ := Json.Reader.hexQuad?_other hex (c := '\'') (by decide)
    simp only [List.map_cons, double_other a_other, double_other b_other]
    exact .control low hex ih

/-- A sign that begins no name is kept, and only braces, commas and blanks lead to where a name may come. -/
theorem quoteKeys_step {s : LooseState} {c : Char} (noName : ¬ (s = .beforeKey ∧ isKeyStart c = true)) :
    ∃ t, (t = .beforeKey → c = '{' ∨ c = ',' ∨ s = .beforeKey ∧ Text.isBlank c = true) ∧
      ∀ cs, quoteKeys s (c :: cs) = c :: quoteKeys t cs := by
  by_cases open_ : ∀ escaped, s ≠ .inside escaped
  · by_cases quote : c = '"'
    · exact ⟨.inside false, by simp, fun cs => by rw [quoteKeys_open open_, if_pos quote]⟩
    by_cases sign : c = '{' ∨ c = ','
    · exact ⟨.beforeKey, fun _ => sign.imp_right .inl,
        fun cs => by rw [quoteKeys_open open_, if_neg quote, if_pos sign]⟩
    by_cases blank : Text.isBlank c = true
    · exact ⟨s, fun same => .inr (.inr ⟨same, blank⟩), fun cs => quoteKeys_blank open_ blank cs⟩
    · exact ⟨.outside, by simp,
        fun cs => by rw [quoteKeys_open open_, if_neg quote, if_neg sign, if_neg blank, if_neg noName]⟩
  · obtain ⟨escaped, inside⟩ := not_forall.mp open_
    obtain rfl := not_not.mp inside
    cases escaped with
    | true => exact ⟨.inside false, by simp, fun cs => by rw [quoteKeys]⟩
    | false =>
      by_cases backslash : c = '\\'
      · exact ⟨.inside true, by simp, fun cs => by rw [quoteKeys, if_pos backslash]⟩
      by_cases quote : c = '"'
      · exact ⟨.outside, by simp, fun cs => by rw [quoteKeys, if_neg backslash, if_pos quote]⟩
      · exact ⟨.inside false, by simp, fun cs => by rw [quoteKeys, if_neg backslash, if_neg quote]⟩

theorem quoteKeys_backslash (s : LooseState) : ∃ t, t ≠ .beforeKey ∧
    ∀ cs, quoteKeys s ('\\' :: cs) = '\\' :: quoteKeys t cs := by
  obtain ⟨t, leads, step⟩ := quoteKeys_step (s := s) (c := '\\') fun both => absurd both.2 (by decide)
  refine ⟨t, fun same => ?_, step⟩
  rcases leads same with brace | comma | ⟨_, blank⟩
  · cases brace
  · cases comma
  · cases blank

/-- Where no name may come, none begins before the next brace or comma. -/
theorem quoteKeys_keeps : ∀ (front : List Char) {s : LooseState}, s ≠ .beforeKey →
    (∀ c ∈ front, c ≠ '{' ∧ c ≠ ',') → ∃ t, ∀ cs, quoteKeys s (front ++ cs) = front ++ quoteKeys t cs
  | [], s, _, _ => ⟨s, fun _ => rfl⟩
  | c :: front, s, other, dull => by
    obtain ⟨brace, comma⟩ := dull c List.mem_cons_self
    obtain ⟨t, leads, step⟩ := quoteKeys_step (c := c) fun both => other both.1
    have away : t ≠ .beforeKey := fun same =>
      (leads same).elim brace fun rest => rest.elim comma fun both => other both.1
    obtain ⟨u, steps⟩ := quoteKeys_keeps front away fun d member => dull d (List.mem_cons_of_mem c member)
    exact ⟨u, fun cs => by rw [List.cons_append, step, steps, List.cons_append]⟩

/-- A run of letters goes through, with quotes around it or without. -/
theorem quoteKeys_letters {c : Char} (begins : isKeyStart c = true) (cs : List Char) :
    ∃ front, (∀ d ∈ front, d = '"' ∨ isKeyChar d = true) ∧
      quoteKeys .beforeKey (c :: cs) = front ++ quoteKeys .outside (cs.dropWhile isKeyChar) := by
  have goes : ∀ d ∈ cs.takeWhile isKeyChar, isKeyChar d = true := fun d member => List.mem_takeWhile_imp member
  have letters : ∀ d ∈ c :: cs.takeWhile isKeyChar, isKeyChar d = true :=
    List.forall_mem_cons.mpr ⟨isKeyChar_of_isKeyStart begins, goes⟩
  have stop : ∀ d ∈ (cs.dropWhile isKeyChar).head?, isKeyChar d = false := by
    intro d first
    have none_ := List.head?_dropWhile_not isKeyChar cs
    rw [Option.mem_def.mp first] at none_
    simpa using none_
  have run := quoteKeys_run begins goes stop
  rw [List.cons_append, List.takeWhile_append_dropWhile] at run
  refine ⟨_, ?_, run⟩
  intro d member
  split at member
  · rcases List.mem_cons.mp member with quote | inner
    · exact .inl quote
    · exact (List.mem_append.mp inner).elim (fun letter => .inr (letters d letter))
        fun quote => .inl (List.mem_singleton.mp quote)
  · exact .inr (letters d member)

/-- Quotes around names neither add an apostrophe nor come into an escape. -/
theorem quoteKeys_lacking : ∀ {n : Nat} {s : LooseState} {cs : List Char}, cs.length ≤ n → Lacking '\'' cs →
    Lacking '\'' (quoteKeys s cs)
  | _, s, [], _, lacking => by rwa [quoteKeys]
  | n + 1, s, c :: cs, enough, lacking => by
    have later {t : LooseState} {rest : List Char} (shorter : rest.length ≤ cs.length) (lacking : Lacking '\'' rest) :
        Lacking '\'' (quoteKeys t rest) :=
      quoteKeys_lacking (shorter.trans (Nat.le_of_succ_le_succ enough)) lacking
    cases escaped : lacking.escaped with
    | plain backslash _ =>
      have tail := lacking.tail backslash
      by_cases name : s = .beforeKey ∧ isKeyStart c = true
      · obtain ⟨rfl, begins⟩ := name
        obtain ⟨front, letters, run⟩ := quoteKeys_letters begins cs
        rw [run]
        refine Lacking.append ?_ ?_ (later (List.dropWhile_sublist _).length_le (tail.dropWhile (by decide)))
        · exact fun member => absurd (letters _ member) (by decide)
        · exact fun member => absurd (letters _ member) (by decide)
      · obtain ⟨t, _, step⟩ := quoteKeys_step name
        rw [step]
        refine (later le_rfl tail).cons backslash ?_
        exact fun same => lacking.absent (same ▸ List.mem_cons_self)
    | @short _ e rest names _ =>
      obtain ⟨t, away, first⟩ := quoteKeys_backslash s
      obtain ⟨u, _, second⟩ := quoteKeys_step (c := e) fun both => away both.1
      rw [first, second]
      have tail : Lacking '\'' rest := ⟨‹_›, fun member => lacking.absent (by simp [member])⟩
      refine Lacking.unit (.short names) ?_ (later (by simp) tail)
      exact fun member => lacking.absent (List.mem_append_left rest member)
    | @control _ a b rest low hex _ =>
      obtain ⟨t, away, first⟩ := quoteKeys_backslash s
      obtain ⟨a_brace, b_brace⟩ := Json.Reader.hexQuad?_other hex (c := '{') (by decide)
      obtain ⟨a_comma, b_comma⟩ := Json.Reader.hexQuad?_other hex (c := ',') (by decide)
      obtain ⟨u, others⟩ := quoteKeys_keeps ['u', '0', '0', a, b] away (by simp [*])
      have tail : Lacking '\'' rest := ⟨‹_›, fun member => lacking.absent (by simp [member])⟩
      change Lacking '\'' (quoteKeys s ('\\' :: (['u', '0', '0', a, b] ++ rest)))
      rw [first, others]
      refine Lacking.unit (.control low hex) ?_ (later (by simp; omega) tail)
      exact fun member => lacking.absent (List.mem_append_left rest member)

end

/-! ## Objects with bare names -/

section
variable (l : Json.Spacing) {v : Json}

theorem tighten_write (integral : v.Integral) (bare : BareNames v) (lacks : v.Lacks '\'') :
    tighten (Json.write l String.toList v) = Json.write l Json.stringChars v := by
  have quoted := quoteKeys_write l v .outside [] integral bare open_outside behind_nil
  rw [quoteKeys, List.append_nil, List.append_nil] at quoted
  change quoteKeys .outside ((Json.write l String.toList v).map double) = _
  rw [map_double_absent ((write_clean l v integral bare).absent lacks), quoted]

theorem lacks_of_tighten {w : Json} (integral : v.Integral) (bare : BareNames v)
    (read : Json.parse (.ofList (tighten (Json.write l String.toList v))) = .ok w) : w.Lacks '\'' := by
  have escaped := (write_clean l v integral bare).escaped .nil
  rw [List.append_nil] at escaped
  have absent : '\'' ∉ (Json.write l String.toList v).map double := by
    intro member
    obtain ⟨c, _, same⟩ := List.mem_map.mp member
    exact double_ne c same
  have lacking := quoteKeys_lacking (s := .outside) le_rfl ⟨escaped_map_double escaped, absent⟩
  exact Json.lacks_of_parse (.of_other (by decide) (by decide)) lacking read

/-- A bare name is not strict JSON. -/
theorem parse_bare_ne {k : String} {fs : Fields} {w : Json} (identifier : Identifier k) :
    Json.parse (.ofList (Json.write l String.toList (.obj ((k, v) :: fs)))) ≠ .ok w := by
  intro read
  obtain ⟨rest, first⟩ := Json.Reader.value_of_parse read
  obtain ⟨c, run, letters, begins, _⟩ := identifier.letters
  have shown : Json.Reader.isSpace c = false := by
    by_contra space
    rw [Bool.not_eq_false] at space
    exact Bool.eq_false_iff.mp (isBlank_keyStart begins) (isBlank_of_isSpace space)
  rw [Json.Reader.maxDepth, Json.write, letters, List.cons_append,
    Json.Reader.value_fields shown (Text.ne_of_class begins (by decide)) l.opened_blank] at first
  obtain ⟨_, named, _⟩ := ok_of_map first
  rw [Json.Reader.fields, Json.Reader.skip_sign shown] at named
  split at named
  · rename_i same
    exact Text.ne_of_class begins (show isKeyStart '"' = false by decide) (List.cons.inj same).1
  · cases named

theorem coerce_noFields (readable : (Json.obj []).Readable) :
    coerce (Json.write l String.toList (.obj [])) = .ok (.obj []) := by
  have bracketed : (Json.obj []).Bracketed := trivial
  have same : Json.write l String.toList (.obj []) = Json.write l Json.stringChars (.obj []) := by
    rw [Json.write, Json.write]
  rw [coerce_write bracketed, same, Json.parse_write l readable]

/-- An object that has names is read after they got their quotes. -/
theorem coerce_fields {k : String} {fs : Fields} (identifier : Identifier k) :
    ∀ w, coerce (Json.write l String.toList (.obj ((k, v) :: fs))) = .ok w ↔
      Json.parse (.ofList (tighten (Json.write l String.toList (.obj ((k, v) :: fs))))) = .ok w := by
  intro w
  have bracketed : (Json.obj ((k, v) :: fs)).Bracketed := trivial
  rw [coerce_write bracketed]
  cases strict : Json.parse (.ofList (Json.write l String.toList (.obj ((k, v) :: fs)))) with
  | ok u => exact absurd strict (parse_bare_ne l identifier)
  | error e =>
    dsimp only
    split
    · rename_i loose
      rw [loose]
      simp
    · rename_i loose
      rw [loose]
      simp

theorem lacks_of_coerce {fs : Fields} (readable : (Json.obj fs).Readable) (bare : BareNames (.obj fs))
    (read : coerce (Json.write l String.toList (.obj fs)) = .ok (.obj fs)) : (Json.obj fs).Lacks '\'' := by
  cases fs with
  | nil => trivial
  | cons f fs => exact lacks_of_tighten l readable.integral bare ((coerce_fields l bare.1 _).mp read)

theorem coerce_of_lacks {fs : Fields} (readable : (Json.obj fs).Readable) (bare : BareNames (.obj fs))
    (lacks : (Json.obj fs).Lacks '\'') : coerce (Json.write l String.toList (.obj fs)) = .ok (.obj fs) := by
  cases fs with
  | nil => exact coerce_noFields l readable
  | cons f fs =>
    apply (coerce_fields l bare.1 _).mpr
    rw [tighten_write l readable.integral bare lacks, Json.parse_write l readable]

/-- An object with bare names is read as it was written exactly where no string in it has an apostrophe. -/
theorem coerce_bare_iff {fs : Fields} (readable : (Json.obj fs).Readable) (bare : BareNames (.obj fs)) :
    coerce (Json.write l String.toList (.obj fs)) = .ok (.obj fs) ↔ (Json.obj fs).Lacks '\'' :=
  ⟨lacks_of_coerce l readable bare, coerce_of_lacks l readable bare⟩

end

/-! ## An apostrophe in a string -/

/-- A blank behind every comma and colon. -/
def spaced : Json.Spacing := ⟨[], [], [], [' '], [], [' '], List.all_eq_true.mp (by decide)⟩

def noted (note : String) : Fields := [("size", .int 7), ("note", .arr [.str note])]

theorem noted_readable (note : String) : (Json.obj (noted note)).Readable where
  tidy := ⟨show ["size", "note"].Nodup by decide, trivial, ⟨trivial, trivial⟩, trivial⟩
  integral := ⟨show leastInt64 ≤ 7 ∧ (7 : Int) < twoTo 64 by decide, ⟨trivial, trivial⟩, trivial⟩
  shallow := show 2 ≤ 127 by decide

theorem noted_bare (note : String) : BareNames (.obj (noted note)) :=
  ⟨⟨by decide, List.all_eq_true.mp (by decide)⟩, trivial,
    ⟨by decide, List.all_eq_true.mp (by decide)⟩, ⟨trivial, trivial⟩, trivial⟩

/-- The apostrophe ends the string in which it stands. -/
theorem apostrophe_not_kept :
    Json.write spaced String.toList (.obj (noted "it's")) = "\x7bsize: 7, note: [\"it's\"]\x7d".toList ∧
      coerce (Json.write spaced String.toList (.obj (noted "it's"))) ≠ .ok (.obj (noted "it's")) := by
  refine ⟨by decide, fun read => ?_⟩
  obtain ⟨_, ⟨absent, _⟩, _⟩ := lacks_of_coerce spaced (noted_readable "it's") (noted_bare "it's") read
  exact absent (by decide)

/-- Colons, commas, braces and names in a string are left alone. -/
theorem syntax_in_string_kept : (Json.obj (noted "\x7ba: b, \\c")).Readable ∧ BareNames (.obj (noted "\x7ba: b, \\c")) ∧
    coerce (Json.write spaced String.toList (.obj (noted "\x7ba: b, \\c"))) = .ok (.obj (noted "\x7ba: b, \\c")) := by
  refine ⟨noted_readable _, noted_bare _, ?_⟩
  exact (coerce_bare_iff spaced (noted_readable _) (noted_bare _)).mpr
    ⟨trivial, ⟨show '\'' ∉ "\x7ba: b, \\c".toList by decide, trivial⟩, trivial⟩

end PageSpec.Dynamic.DataCall
