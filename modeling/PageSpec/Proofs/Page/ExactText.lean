import PageSpec.Proofs.Page.Innermost
import PageSpec.Proofs.Page.Unmoved
/-!
Looking for an exact text. The expectation asks whether some element with the text can be seen, but only the
first element with the text is looked at. So it comes to what it asks exactly where the first one can be
seen whenever any can.
-/
namespace PageSpec.Page
variable {f : Forest} {t : String}

/-- An element of the page's own document has a text that nothing below it has. -/
def Shows (f : Forest) (t : String) (i : Nat) : Prop :=
  f.LiesIn 0 i ∧ f.plainText i = Text.collapse t ∧ ∀ j, f.Below i j → f.plainText j ≠ Text.collapse t

/-- Of the elements with a text, the first one. -/
def ShowsFirst (f : Forest) (t : String) (i : Nat) : Prop := Shows f t i ∧ ∀ j, Shows f t j → i ≤ j

/-- If an element with the text can be seen at all, the first one can. -/
def SeenFirst (f : Forest) (t : String) : Prop :=
  ∀ i, ShowsFirst f t i → (∃ j, Shows f t j ∧ f.Seen j) → f.Seen i

/-- The elements with a text, in document order. -/
def showing (f : Forest) (t : String) : List Nat :=
  withText f (.documents [0]) (Text.collapse t)

theorem resolve_exact (f : Forest) (t : String) :
    resolve f (Locator.page.text (Text.collapse t)) = .ok (showing f t) := rfl

theorem mem_showing (ordered : f.Ordered) {i : Nat} : i ∈ showing f t ↔ Shows f t i := by
  unfold showing Shows
  rw [mem_withText ordered]
  unfold Scope.Encloses Innermost
  simp only [List.mem_singleton, exists_eq_left]

theorem head_showing (ordered : f.Ordered) {i : Nat} : (showing f t).head? = some i ↔ ShowsFirst f t i := by
  have sorted : (showing f t).Pairwise (· < ·) := withText_sorted f _ _
  unfold ShowsFirst
  simp only [← mem_showing ordered]
  cases shown : showing f t with
  | nil => simp
  | cons first others =>
    rw [shown] at sorted
    have least (j : Nat) (later : j ∈ others) : first < j := List.rel_of_pairwise_cons sorted later
    rw [List.head?_cons, Option.some_inj]
    constructor
    · rintro rfl
      refine ⟨List.mem_cons_self, fun j member => ?_⟩
      rcases List.mem_cons.mp member with rfl | later
      · exact Nat.le_refl j
      · exact Nat.le_of_lt (least j later)
    · rintro ⟨member, leading⟩
      have bound := leading first List.mem_cons_self
      rcases List.mem_cons.mp member with same | later
      · exact same.symm
      · exact absurd (least i later) (Nat.not_lt.mpr bound)

theorem exists_showsFirst (ordered : f.Ordered) {j : Nat} (shown : Shows f t j) : ∃ i, ShowsFirst f t i := by
  have member := (mem_showing ordered).mpr shown
  cases first : (showing f t).head? with
  | none => rw [List.head?_eq_none_iff.mp first] at member; cases member
  | some i => exact ⟨i, (head_showing ordered).mp first⟩

/-- The expectation is met if the first element with the text can be seen. -/
theorem await_exactText_iff (patience : Patience) (t : String) (p : Page) (ordered : p.forest.Ordered) :
    (await patience (.exactText t) p).1 = .ok () ↔ ∃ i, ShowsFirst p.forest t i ∧ p.forest.Seen i := by
  rw [await_ok_iff, Expectation.exactText, visible_ok_iff (resolve_exact p.forest t), Option.any_eq_true]
  simp only [head_showing ordered, ordered.visible_iff]

/-- Looking for an exact text finds an element that has it and can be seen, and finds it whenever there is
one exactly if the first element with the text is not hidden before another that can be seen. -/
theorem exactText_found_iff {document : List Element} {p : Page} (shown : p.forest = (Forest.build document).1)
    (patience : Patience) (t : String) :
    ((await patience (.exactText t) p).1 = .ok () → ∃ i, Shows p.forest t i ∧ p.forest.Seen i) ∧
      (((await patience (.exactText t) p).1 = .ok () ↔ ∃ i, Shows p.forest t i ∧ p.forest.Seen i) ↔
        SeenFirst p.forest t) := by
  have ordered : p.forest.Ordered := by
    rw [shown]
    exact build_ordered rfl
  rw [await_exactText_iff patience t p ordered]
  have found : (∃ i, ShowsFirst p.forest t i ∧ p.forest.Seen i) →
      ∃ i, Shows p.forest t i ∧ p.forest.Seen i := fun ⟨i, first, seen⟩ => ⟨i, first.1, seen⟩
  refine ⟨found, fun same i first others => ?_, fun first => ⟨found, fun others => ?_⟩⟩
  · obtain ⟨j, first', seen⟩ := same.mpr others
    -- there is one first element only
    have only : i = j := Nat.le_antisymm (first.2 j first'.1) (first'.2 i first.1)
    exact only ▸ seen
  · obtain ⟨j, shows, _⟩ := id others
    obtain ⟨i, leads⟩ := exists_showsFirst ordered shows
    exact ⟨i, leads, first i leads others⟩

/-- Two greetings, of which one or the other may be hidden. -/
def greetings (first second : Bool) : List Element :=
  let greeting (hidden : Bool) : Element :=
    .mk { Traits.ofTag "p" with text := "Hi", hidden := hidden } ⟨"", false, 0⟩ none []
  [greeting first, greeting second]

/-- A hidden greeting after one that can be seen does no harm. -/
theorem greeting_found :
    (ofDocument (greetings false true)).forest = (Forest.build (greetings false true)).1 ∧
      SeenFirst (ofDocument (greetings false true)).forest "Hi" ∧
        ((await .default (.exactText "Hi") (ofDocument (greetings false true))).1 = .ok () ↔
          ∃ i, Shows (ofDocument (greetings false true)).forest "Hi" i ∧
            (ofDocument (greetings false true)).forest.Seen i) := by
  have ordered : (ofDocument (greetings false true)).forest.Ordered := build_ordered rfl
  have seen : SeenFirst (ofDocument (greetings false true)).forest "Hi" := by
    intro i first _
    have leads : (showing (ofDocument (greetings false true)).forest "Hi").head? = some 0 := by decide +kernel
    cases leads.symm.trans ((head_showing ordered).mpr first)
    exact ordered.visible_iff.mp (by decide +kernel)
  exact ⟨rfl, seen, (exactText_found_iff rfl .default "Hi").2.mpr seen⟩

/-- A greeting that can be seen is not found after a hidden one. -/
theorem greeting_missed : ¬ ∀ (document : List Element) (p : Page) (patience : Patience) (t : String),
    p.forest = (Forest.build document).1 →
      ((await patience (.exactText t) p).1 = .ok () ↔ ∃ i, Shows p.forest t i ∧ p.forest.Seen i) := by
  intro always
  have ordered : (ofDocument (greetings true false)).forest.Ordered := build_ordered rfl
  have shows : Shows (ofDocument (greetings true false)).forest "Hi" 1 :=
    (mem_showing ordered).mp (by decide +kernel)
  have seen : (ofDocument (greetings true false)).forest.Seen 1 := ordered.visible_iff.mp (by decide +kernel)
  have lost : (await .default (.exactText "Hi") (ofDocument (greetings true false))).1.toOption = none := by
    decide +kernel
  rw [(always _ _ .default "Hi" rfl).mpr ⟨1, shows, seen⟩] at lost
  cases lost

end PageSpec.Page
