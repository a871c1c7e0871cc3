import PageSpec.Locator
import PageSpec.Proofs.Browser.Readings
import PageSpec.Proofs.Text.Classes
import PageSpec.Proofs.Text.Unquoting
/-!
Locators told apart by their texts. A step is read back from its text, with whatever steps stand behind it: it begins
with a name, what follows the name says which step it is, and a quoted text says itself where it ends. So two locators
with one text have the same steps.
-/
namespace PageSpec

namespace Step

/-- The tag of a step is a tag name. -/
def Named : Step → Prop
  | .tagText tag _ => Target.isTagName tag.toList = true
  | _ => True

/-! ## Reading -/

/-- A whole number, perhaps with a minus, and what stands behind its digits. -/
def readIndex : List Char → Int × List Char
  | '-' :: cs => (-(Text.digitsValue (cs.takeWhile Text.isDigit) : Int), cs.dropWhile Text.isDigit)
  | cs => (Text.digitsValue (cs.takeWhile Text.isDigit), cs.dropWhile Text.isDigit)

/-- The step of a name, and what stands behind it; what follows the name is given. -/
def readBehind? (name : String) : List Char → Option (Step × List Char)
  | '.' :: '.' :: cs => some (.parent, cs)
  | ':' :: cs => do
    let cs ← Text.after? "has-text(\"".toList cs
    let (t, cs) ← Text.unquote? cs
    return (.tagText name (.ofList t), cs.drop 1)
  | '=' :: '"' :: cs => do
    let (t, cs) ← Text.unquote? cs
    if name = "frame" then return (.frame (.ofList t), cs)
    else if name = "css" then return (.css (.ofList t), cs)
    else return (.text (.ofList t), cs)
  | '=' :: cs => some (.nth (readIndex cs).1, (readIndex cs).2)
  | cs => if name = "first" then some (.first, cs) else if name = "last" then some (.last, cs) else none

/-- The first step of a text, and what stands behind it. -/
def read? (cs : List Char) : Option (Step × List Char) :=
  readBehind? (.ofList (cs.takeWhile Target.isTagChar)) (cs.dropWhile Target.isTagChar)

variable {cs rest : List Char}

theorem read?_name {name : List Char} (letters : ∀ c ∈ name, Target.isTagChar c = true)
    (stop : ∀ c ∈ rest.head?, Target.isTagChar c = false) :
    read? (name ++ rest) = readBehind? (.ofList name) rest := by
  obtain ⟨front, back⟩ := Text.run_stops letters stop
  rw [read?, front, back]

/-- Another step may stand behind: nothing, or something that begins with a blank. -/
def Parted (rest : List Char) : Prop := ∀ c ∈ rest.head?, c = ' '

theorem Parted.stops (parted : Parted rest) {p : Char → Bool} (blank : p ' ' = false) :
    ∀ c ∈ rest.head?, p c = false := by
  intro c first
  rw [parted c first]
  exact blank

theorem readIndex_digit {d : Char} (digit : Text.isDigit d = true) (cs : List Char) : readIndex (d :: cs) =
    ((Text.digitsValue ((d :: cs).takeWhile Text.isDigit) : Int), (d :: cs).dropWhile Text.isDigit) := by
  unfold readIndex
  split
  · rename_i same
    cases same
    cases digit
  · rfl

/-- A number begins with a digit, or with a minus. -/
theorem toString_begins (n : Int) : ∃ d ds, (toString n).toList = d :: ds ∧ d ≠ '"' := by
  rw [Int.toString_eq_repr, Int.repr_eq_if]
  split
  · rw [Nat.toList_repr]
    obtain ⟨d, ds, digits⟩ := List.exists_cons_of_ne_nil (Nat.toDigits_ne_nil (n := n.toNat) (b := 10))
    have digit : Text.isDigit d = true := Text.toDigits_digit (digits ▸ List.mem_cons_self)
    refine ⟨d, ds, digits, ?_⟩
    rintro rfl
    cases digit
  · rw [String.toList_append]
    exact ⟨'-', _, rfl, by decide⟩

theorem readIndex_toString (n : Int) (parted : Parted rest) : readIndex ((toString n).toList ++ rest) = (n, rest) := by
  have run (m : Nat) := Text.run_stops (fun c member => Text.toDigits_digit (n := m) member)
    (parted.stops (p := Text.isDigit) rfl)
  have value (m : Nat) : Text.digitsValue (Nat.toDigits 10 m) = m := by
    rw [Text.digitsValue_eq, Nat.ofDigitChars_ten_toDigits]
  rw [Int.toString_eq_repr, Int.repr_eq_if]
  by_cases sign : 0 ≤ n
  · obtain ⟨d, ds, digits⟩ := List.exists_cons_of_ne_nil (Nat.toDigits_ne_nil (n := n.toNat) (b := 10))
    have digit : Text.isDigit d = true := Text.toDigits_digit (digits ▸ List.mem_cons_self)
    obtain ⟨front, back⟩ := run n.toNat
    rw [if_pos sign, Nat.toList_repr]
    rw [digits] at front back ⊢
    rw [List.cons_append, readIndex_digit digit, ← List.cons_append, front, back, ← digits, value,
      Int.toNat_of_nonneg sign]
  · obtain ⟨front, back⟩ := run (-n).toNat
    rw [if_neg sign, String.toList_append, Nat.toList_repr]
    change (-(Text.digitsValue ((Nat.toDigits 10 (-n).toNat ++ rest).takeWhile Text.isDigit) : Int),
      (Nat.toDigits 10 (-n).toNat ++ rest).dropWhile Text.isDigit) = (n, rest)
    rw [front, back, value, Int.toNat_of_nonneg (by omega), Int.neg_neg]

/-- Behind its name, a quoted text is read. -/
theorem readBehind?_quote (name t : String) (rest : List Char) :
    readBehind? name ('=' :: ((Text.quote t).toList ++ rest)) =
      if name = "frame" then some (.frame t, rest) else if name = "css" then some (.css t, rest)
      else some (.text t, rest) := by
  have quoted : (Text.quote t).toList ++ rest = '"' :: (t.toList.flatMap Text.quoteChar ++ '"' :: rest) := by
    simp [Text.quote, Text.quoteChars]
  rw [quoted, readBehind?, Text.unquote?_chars]
  simp only [Option.bind_eq_bind, Option.bind_some, String.ofList_toList, Option.pure_def]

theorem readBehind?_part (tag part : String) (rest : List Char) :
    readBehind? (.ofList tag.toList) (":has-text(".toList ++ ((Text.quote part).toList ++ [')']) ++ rest) =
      some (.tagText tag part, rest) := by
  have quoted : ":has-text(".toList ++ ((Text.quote part).toList ++ [')']) ++ rest =
      ':' :: ("has-text(\"".toList ++ (part.toList.flatMap Text.quoteChar ++ '"' :: ')' :: rest)) := by
    simp [Text.quote, Text.quoteChars]
  rw [quoted, readBehind?, Text.after?_append]
  simp only [Option.bind_eq_bind, Option.bind_some, Text.unquote?_chars, String.ofList_toList, Option.pure_def,
    List.drop_succ_cons, List.drop_zero]

theorem Parted.readBehind?_bare {name : String} (parted : Parted rest) : readBehind? name rest =
    if name = "first" then some (.first, rest) else if name = "last" then some (.last, rest) else none := by
  cases rest with
  | nil => rfl
  | cons c cs =>
    cases parted c rfl
    rfl

theorem readBehind?_index (name : String) (n : Int) (parted : Parted rest) :
    readBehind? name ('=' :: ((toString n).toList ++ rest)) = some (.nth n, rest) := by
  have read := readIndex_toString n parted
  obtain ⟨d, ds, digits, other⟩ := toString_begins n
  rw [digits, List.cons_append] at read ⊢
  rw [readBehind?, read]
  rintro _ ⟨⟩
  exact other rfl

/-- A step is read back, whatever steps stand behind it. -/
theorem read?_describe {s : Step} (named : s.Named) (parted : Parted rest) :
    read? (s.describe.toList ++ rest) = some (s, rest) := by
  have behind (name tail : List Char) (letters : name.all Target.isTagChar = true)
      (stop : ∀ c ∈ (tail ++ rest).head?, Target.isTagChar c = false) (text : s.describe.toList = name ++ tail)
      (read : readBehind? (.ofList name) (tail ++ rest) = some (s, rest)) :
      read? (s.describe.toList ++ rest) = some (s, rest) := by
    rw [text, List.append_assoc, read?_name (List.all_eq_true.mp letters) stop, read]
  cases s with
  | frame t =>
    apply behind "frame".toList ('=' :: (Text.quote t).toList) rfl (by rintro c ⟨⟩; rfl) String.toList_append
    exact readBehind?_quote "frame" t rest
  | css t =>
    apply behind "css".toList ('=' :: (Text.quote t).toList) rfl (by rintro c ⟨⟩; rfl) String.toList_append
    exact readBehind?_quote "css" t rest
  | text t =>
    apply behind "text".toList ('=' :: (Text.quote t).toList) rfl (by rintro c ⟨⟩; rfl) String.toList_append
    exact readBehind?_quote "text" t rest
  | tagText tag part =>
    apply behind tag.toList (":has-text(".toList ++ ((Text.quote part).toList ++ [')']))
      (List.all_eq_true.mpr (Target.isTagChar_of_mem named)) (by rintro c ⟨⟩; rfl)
    · rw [describe, String.toList_append, String.toList_append, String.toList_append, List.append_assoc,
        List.append_assoc]
      rfl
    · exact readBehind?_part tag part rest
  | parent => exact behind [] "..".toList rfl (by rintro c ⟨⟩; rfl) rfl rfl
  | first =>
    apply behind "first".toList [] rfl (parted.stops rfl) rfl
    exact parted.readBehind?_bare
  | last =>
    apply behind "last".toList [] rfl (parted.stops rfl) rfl
    exact parted.readBehind?_bare
  | nth n =>
    apply behind "nth".toList ('=' :: (toString n).toList) rfl (by rintro c ⟨⟩; rfl) String.toList_append
    exact readBehind?_index "nth" n parted

end Step

namespace Locator
open Step

/-! ## Chains -/

/-- The steps behind a step, as they are written. -/
def behind (ss : List Step) : List Char := ss.flatMap fun s => " >> ".toList ++ s.describe.toList

theorem behind_parted (ss : List Step) : Parted (behind ss) := by
  cases ss with
  | nil => rintro c ⟨⟩
  | cons s ss => rintro c ⟨⟩; rfl

theorem intercalate_behind : ∀ (s : Step) (ss : List Step),
    (" >> ".intercalate ((s :: ss).map Step.describe)).toList = s.describe.toList ++ behind ss
  | s, [] => by
    rw [List.map_singleton, String.intercalate_singleton]
    exact (List.append_nil _).symm
  | s, t :: ss => by
    have later := intercalate_behind t ss
    rw [List.map_cons, List.map_cons, String.intercalate_cons_cons, String.toList_append, String.toList_append,
      ← List.map_cons, later, List.append_assoc]
    simp only [behind, List.flatMap_cons, List.append_assoc]

/-- Where the texts of two steps agree with what stands behind, the steps do, and what stands behind does. -/
theorem describe_first {s s' : Step} {ss ss' : List Step} (named : s.Named) (named' : s'.Named)
    (same : s.describe.toList ++ behind ss = s'.describe.toList ++ behind ss') :
    s = s' ∧ behind ss = behind ss' := by
  have read := read?_describe named (behind_parted ss)
  rw [same, read?_describe named' (behind_parted ss')] at read
  obtain ⟨step, later⟩ := Prod.mk.inj (Option.some.inj read)
  exact ⟨step.symm, later.symm⟩

theorem behind_inj : ∀ {ss ss' : List Step}, (∀ s ∈ ss, s.Named) → (∀ s ∈ ss', s.Named) → behind ss = behind ss' →
    ss = ss'
  | [], [], _, _, _ => rfl
  | [], _ :: _, _, _, same => by cases same
  | _ :: _, [], _, _, same => by cases same
  | s :: ss, s' :: ss', named, named', same => by
    obtain ⟨first, others⟩ := List.forall_mem_cons.mp named
    obtain ⟨first', others'⟩ := List.forall_mem_cons.mp named'
    simp only [behind, List.flatMap_cons, List.append_assoc, List.append_cancel_left_eq] at same
    obtain ⟨rfl, later⟩ := describe_first first first' same
    rw [behind_inj others others' later]

theorem describe_nonempty (s : Step) (ss : List Step) :
    (Locator.mk (s :: ss)).describe.toList = s.describe.toList ++ behind ss :=
  intercalate_behind s ss

/-- The text of the page is not that of a step. -/
theorem describe_ne_page {s : Step} {ss : List Step} (named : s.Named) :
    (Locator.mk (s :: ss)).describe ≠ "page" := by
  intro same
  have read := read?_describe named (behind_parted ss)
  rw [← describe_nonempty, same] at read
  cases read

/-- Locators whose tags are tag names are told apart by their texts: one text stands for one list of steps. -/
theorem describe_eq_iff {l l' : Locator} (named : ∀ s ∈ l.steps, s.Named) (named' : ∀ s ∈ l'.steps, s.Named) :
    l.describe = l'.describe ↔ l.steps = l'.steps := by
  obtain ⟨ss⟩ := l
  obtain ⟨ss'⟩ := l'
  constructor
  · intro same
    cases ss with
    | nil =>
      cases ss' with
      | nil => rfl
      | cons s' ss' => exact (describe_ne_page (named' s' List.mem_cons_self) same.symm).elim
    | cons s ss =>
      cases ss' with
      | nil => exact (describe_ne_page (named s List.mem_cons_self) same).elim
      | cons s' ss' =>
        obtain ⟨first, others⟩ := List.forall_mem_cons.mp named
        obtain ⟨first', others'⟩ := List.forall_mem_cons.mp named'
        have texts := congrArg String.toList same
        rw [describe_nonempty, describe_nonempty] at texts
        obtain ⟨rfl, later⟩ := describe_first first first' texts
        rw [behind_inj others others' later]
  · intro same
    exact congrArg (fun ss => (Locator.mk ss).describe) same

/-- A button with a text that looks like the end of a step and another step is not taken for the two. -/
theorem lookalike_told :
    let one : Locator := ⟨[.tagText "button" "a\") >> css=\"b"]⟩
    let two : Locator := ⟨[.tagText "button" "a", .css "b"]⟩
    (∀ s ∈ one.steps, s.Named) ∧ (∀ s ∈ two.steps, s.Named) ∧ one.describe ≠ two.describe := by
  intro one two
  have button : Target.isTagName "button".toList = true := by decide
  have named : ∀ s ∈ one.steps, s.Named := List.forall_mem_singleton.mpr button
  have named' : ∀ s ∈ two.steps, s.Named := List.forall_mem_cons.mpr ⟨button, List.forall_mem_singleton.mpr trivial⟩
  refine ⟨named, named', fun same => ?_⟩
  have steps : one.steps = two.steps := (describe_eq_iff named named').mp same
  cases congrArg List.length steps

end Locator
end PageSpec
