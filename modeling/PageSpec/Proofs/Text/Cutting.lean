import Mathlib.Data.List.TakeWhile
import PageSpec.Text.Blank
import PageSpec.Text.Find
/-!
Texts cut apart: at a character that was looked for, where a run of characters ends, and at the blanks around
a text.
-/
namespace PageSpec.Text

/-! ## At a character -/

theorem splitOnce_append {sep : Char} {cs : List Char} (absent : sep ∉ cs) (rest : List Char) :
    splitOnce sep (cs ++ sep :: rest) = some (cs, rest) := by
  induction cs with
  | nil => simp [splitOnce]
  | cons c cs ih =>
    rw [List.mem_cons, not_or] at absent
    obtain ⟨other, later⟩ := absent
    simp [splitOnce, Ne.symm other, ih later]

theorem splitOnce_absent {sep : Char} {cs : List Char} (absent : sep ∉ cs) : splitOnce sep cs = none := by
  induction cs with
  | nil => rfl
  | cons c cs ih =>
    rw [List.mem_cons, not_or] at absent
    obtain ⟨other, later⟩ := absent
    simp [splitOnce, Ne.symm other, ih later]

theorem eq_of_splitOnce {sep : Char} : ∀ {cs left right : List Char}, splitOnce sep cs = some (left, right) →
    cs = left ++ sep :: right
  | c :: cs, left, right, split => by
    unfold splitOnce at split
    by_cases same : c = sep
    · rw [if_pos same] at split
      cases split
      rw [same, List.nil_append]
    · rw [if_neg same] at split
      obtain ⟨⟨front, back⟩, later, both⟩ := Option.map_eq_some_iff.mp split
      cases both
      rw [List.cons_append, ← eq_of_splitOnce later]

theorem splitAll_absent {sep : Char} : ∀ {cs : List Char}, sep ∉ cs → splitAll sep cs = [cs]
  | [], _ => rfl
  | c :: cs, absent => by
    obtain ⟨other, later⟩ := not_or.mp (mt List.mem_cons.mpr absent)
    rw [splitAll, if_neg (Ne.symm other), splitAll_absent later]

theorem splitAll_append {sep : Char} : ∀ {cs : List Char}, sep ∉ cs → ∀ rest : List Char,
    splitAll sep (cs ++ sep :: rest) = cs :: splitAll sep rest
  | [], _, rest => by rw [List.nil_append, splitAll, if_pos rfl]
  | c :: cs, absent, rest => by
    obtain ⟨other, later⟩ := not_or.mp (mt List.mem_cons.mpr absent)
    rw [List.cons_append, splitAll, if_neg (Ne.symm other), splitAll_append later]

theorem mem_of_mem_intercalate {sep : List Char} {c : Char} : ∀ {ps : List (List Char)}, c ∈ sep.intercalate ps →
    c ∈ sep ∨ ∃ p ∈ ps, c ∈ p
  | [p], member => .inr ⟨p, List.mem_singleton.mpr rfl, by rwa [List.intercalate_singleton] at member⟩
  | p :: q :: ps, member => by
    rw [List.intercalate_cons_cons, List.mem_append, List.mem_append] at member
    rcases member with (first | between) | later
    · exact .inr ⟨p, List.mem_cons_self, first⟩
    · exact .inl between
    · exact (mem_of_mem_intercalate later).imp_right
        fun ⟨r, inside, letter⟩ => ⟨r, List.mem_cons_of_mem p inside, letter⟩

theorem splitAll_intercalate {sep : Char} : ∀ {p : List Char} {ps : List (List Char)}, (∀ q ∈ p :: ps, sep ∉ q) →
    splitAll sep ([sep].intercalate (p :: ps)) = p :: ps
  | p, [], absent => by rw [List.intercalate_singleton, splitAll_absent (absent p List.mem_cons_self)]
  | p, q :: ps, absent => by
    rw [List.intercalate_cons_cons, List.append_assoc, List.singleton_append,
      splitAll_append (absent p List.mem_cons_self),
      splitAll_intercalate fun r member => absent r (List.mem_cons_of_mem p member)]

/-- Cutting everywhere leaves pieces without the character, which make up the text again. -/
theorem splitAll_pieces (sep : Char) : ∀ cs : List Char, ∃ p ps, splitAll sep cs = p :: ps ∧
    [sep].intercalate (p :: ps) = cs ∧ ∀ q ∈ p :: ps, sep ∉ q
  | [] => ⟨[], [], rfl, rfl, by simp⟩
  | c :: cs => by
    obtain ⟨p, ps, cut, joined, apart⟩ := splitAll_pieces sep cs
    rw [splitAll, cut]
    by_cases same : c = sep
    · refine ⟨[], p :: ps, if_pos same, ?_, ?_⟩
      · rw [List.intercalate_cons_cons, joined, same]
        rfl
      · exact List.forall_mem_cons.mpr ⟨List.not_mem_nil, apart⟩
    · refine ⟨c :: p, ps, if_neg same, ?_, ?_⟩
      · rw [← joined]
        cases ps with
        | nil => rw [List.intercalate_singleton, List.intercalate_singleton]
        | cons q ps => rw [List.intercalate_cons_cons, List.intercalate_cons_cons]; rfl
      · obtain ⟨first, others⟩ := List.forall_mem_cons.mp apart
        exact List.forall_mem_cons.mpr ⟨by simp [Ne.symm same, first], others⟩

theorem before_stop {stop : Char} {front : List Char} (absent : stop ∉ front) (back : List Char) :
    (front ++ stop :: back).takeWhile (· ≠ stop) = front ∧
      (front ++ stop :: back).dropWhile (· ≠ stop) = stop :: back := by
  have goes : ∀ c ∈ front, decide (c ≠ stop) = true := by
    intro c member
    rw [decide_eq_true_eq]
    rintro rfl
    exact absent member
  rw [List.takeWhile_append_of_pos goes, List.dropWhile_append_of_pos goes]
  simp

theorem without_stop {stop : Char} {cs : List Char} (absent : stop ∉ cs) : cs.dropWhile (· ≠ stop) = [] := by
  apply List.dropWhile_eq_nil_iff.mpr
  intro c member
  rw [decide_eq_true_eq]
  rintro rfl
  exact absent member

theorem after?_append : ∀ front rest : List Char, after? front (front ++ rest) = some rest
  | [], _ => rfl
  | c :: front, rest => by simp [after?, after?_append front rest]

theorem eq_of_after? : ∀ {front cs rest : List Char}, after? front cs = some rest → cs = front ++ rest
  | [], _, _, found => Option.some.inj found
  | c :: front, d :: cs, rest, found => by
    rw [after?] at found
    by_cases same : c = d
    · rw [if_pos same] at found
      rw [same, List.cons_append, ← eq_of_after? found]
    · rw [if_neg same] at found
      cases found

/-! ## At the end of a run -/

/-- A run of characters ends where the text does or a character comes that is none of them. -/
theorem run_stops {p : Char → Bool} {front back : List Char} (run : ∀ c ∈ front, p c = true)
    (stop : ∀ c ∈ back.head?, p c = false) :
    (front ++ back).takeWhile p = front ∧ (front ++ back).dropWhile p = back := by
  rw [List.takeWhile_append_of_pos run, List.dropWhile_append_of_pos run]
  cases back with
  | nil => simp
  | cons c back => simp [stop c rfl]

/-! ## At the blanks -/

theorem trimStart_cons {c : Char} {cs : List Char} (letter : isBlank c = false) :
    trimStart (c :: cs) = c :: cs := by
  simp [trimStart, letter]

theorem trimEnd_cons {c : Char} (letter : isBlank c = false) (cs : List Char) :
    trimEnd (c :: cs) = c :: trimEnd cs := by
  unfold trimEnd
  rw [List.reverse_cons, List.dropWhile_append]
  split
  · rename_i nothing
    rw [List.isEmpty_iff] at nothing
    simp [nothing, letter]
  · simp

theorem trimEnd_concat {c : Char} {cs : List Char} (letter : isBlank c = false) :
    trimEnd (cs ++ [c]) = cs ++ [c] := by
  simp [trimEnd, letter]

/-- Blanks before a text do not count. -/
theorem trimChars_blank {c : Char} {cs : List Char} (blank : isBlank c = true) :
    trimChars (c :: cs) = trimChars cs := by
  simp [trimChars, trimStart, blank]

theorem mem_of_mem_trimEnd {c : Char} {cs : List Char} (member : c ∈ trimEnd cs) : c ∈ cs := by
  unfold trimEnd at member
  rw [List.mem_reverse] at member
  have inside := (List.dropWhile_sublist isBlank).subset member
  exact List.mem_reverse.mp inside

theorem mem_of_mem_trimChars {c : Char} {cs : List Char} (member : c ∈ trimChars cs) : c ∈ cs :=
  (List.dropWhile_sublist isBlank).subset (mem_of_mem_trimEnd member)

theorem trimChars_letters {cs : List Char} (letters : ∀ c ∈ cs, isBlank c = false) : trimChars cs = cs := by
  have front : trimStart cs = cs := by
    cases cs with
    | nil => rfl
    | cons c cs => exact trimStart_cons (letters c (.head _))
  unfold trimChars
  rw [front]
  rcases List.eq_nil_or_concat cs with rfl | ⟨start, c, rfl⟩
  · rfl
  · rw [List.concat_eq_append] at letters ⊢
    apply trimEnd_concat
    apply letters
    simp

/-- Blanks around a text that neither begins nor ends with one are removed. -/
theorem trimChars_around {lead cs trail : List Char} (before : ∀ c ∈ lead, isBlank c = true)
    (behind : ∀ c ∈ trail, isBlank c = true) (begins : ∃ c more, cs = c :: more ∧ isBlank c = false)
    (ends : ∃ front c, cs = front ++ [c] ∧ isBlank c = false) : trimChars (lead ++ (cs ++ trail)) = cs := by
  have start : trimStart (lead ++ (cs ++ trail)) = cs ++ trail := by
    obtain ⟨c, more, rfl, letter⟩ := begins
    unfold trimStart
    rw [List.dropWhile_append_of_pos before]
    exact trimStart_cons letter
  obtain ⟨front, c, rfl, letter⟩ := ends
  have behind' : ∀ c ∈ trail.reverse, isBlank c = true := by simpa using behind
  unfold trimChars trimEnd
  rw [start, List.reverse_append, List.dropWhile_append_of_pos behind']
  exact trimEnd_concat letter

/-- A text that neither begins nor ends with a blank stays as it is. -/
theorem trimChars_self {cs : List Char} (begins : ∃ c more, cs = c :: more ∧ isBlank c = false)
    (ends : ∃ front c, cs = front ++ [c] ∧ isBlank c = false) : trimChars cs = cs := by
  have around := trimChars_around (List.forall_mem_nil _) (List.forall_mem_nil _) begins ends
  rwa [List.nil_append, List.append_nil] at around

theorem dropWhile_nil_or {p : Char → Bool} : ∀ cs : List Char,
    cs.dropWhile p = [] ∨ ∃ c more, cs.dropWhile p = c :: more ∧ p c = false
  | [] => .inl rfl
  | c :: cs => by
    rw [List.dropWhile_cons]
    cases first : p c with
    | true => rw [if_pos rfl]; exact dropWhile_nil_or cs
    | false => exact .inr ⟨c, cs, rfl, first⟩

/-- What is left without the outer blanks neither begins nor ends with one. -/
theorem trimChars_nil_or (cs : List Char) : trimChars cs = [] ∨
    (∃ c more, trimChars cs = c :: more ∧ isBlank c = false) ∧
      ∃ front c, trimChars cs = front ++ [c] ∧ isBlank c = false := by
  unfold trimChars
  rcases dropWhile_nil_or (p := isBlank) cs with nothing | ⟨c, more, start, letter⟩
  · exact .inl (by rw [trimStart, nothing]; rfl)
  right
  rw [trimStart, start]
  refine ⟨⟨c, trimEnd more, trimEnd_cons letter more, letter⟩, ?_⟩
  unfold trimEnd
  rcases dropWhile_nil_or (p := isBlank) (c :: more).reverse with nothing | ⟨d, less, back, last⟩
  · have blank := List.dropWhile_eq_nil_iff.mp nothing c (by simp)
    cases letter.symm.trans blank
  · exact ⟨less.reverse, d, by rw [back, List.reverse_cons], last⟩

/-- A text is what is left of it with blanks around. -/
theorem trimChars_split (cs : List Char) : ∃ lead trail, cs = lead ++ (trimChars cs ++ trail) ∧
    (∀ c ∈ lead, isBlank c = true) ∧ ∀ c ∈ trail, isBlank c = true := by
  refine ⟨cs.takeWhile isBlank, ((trimStart cs).reverse.takeWhile isBlank).reverse, ?_,
    fun _ => List.mem_takeWhile_imp, fun _ member => List.mem_takeWhile_imp (List.mem_reverse.mp member)⟩
  have back : trimChars cs ++ ((trimStart cs).reverse.takeWhile isBlank).reverse = trimStart cs := by
    unfold trimChars trimEnd
    rw [← List.reverse_append, List.takeWhile_append_dropWhile, List.reverse_reverse]
  rw [back]
  exact List.takeWhile_append_dropWhile.symm

/-- Exactly blanks are trimmed away altogether. -/
theorem trimChars_eq_nil_iff {cs : List Char} : trimChars cs = [] ↔ ∀ c ∈ cs, isBlank c = true := by
  unfold trimChars
  rcases dropWhile_nil_or (p := isBlank) cs with nothing | ⟨c, more, start, letter⟩
  · rw [trimStart, nothing]
    exact ⟨fun _ => List.dropWhile_eq_nil_iff.mp nothing, fun _ => rfl⟩
  · rw [trimStart, start, trimEnd_cons letter]
    constructor
    · exact nofun
    · intro blank
      rw [List.dropWhile_eq_nil_iff.mpr blank] at start
      cases start

theorem trimChars_trimChars (cs : List Char) : trimChars (trimChars cs) = trimChars cs := by
  rcases trimChars_nil_or cs with nothing | ⟨begins, ends⟩
  · rw [nothing]
    rfl
  · exact trimChars_self begins ends

end PageSpec.Text
