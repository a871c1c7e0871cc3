import PageSpec.Proofs.Execution.Guards
import PageSpec.Proofs.Execution.Seeking
import PageSpec.Proofs.Page.Hollow
/-!
Actions with blank targets. A target of which nothing is left but blanks, as when a variable lacks the
field that a token asks for, is a text like any other: it stands for the hollow elements of the scope. So
the action keeps off the page exactly where there is no such element for it.
-/
namespace PageSpec.Exec
variable {c : Setting} {base : Locator} {a : Action} {aim : Aim} {raw : Json} {r q p : Run Page}
  {o : Exec Page Unit} {t : String} {document : List Page.Element}

/-! ## The way to an operation -/

/-- An action has come to one of its operations: the gate is open, and the operations before are done. -/
structure Reached (c : Setting) (a : Action) (aim : Aim) (q : Run Page) (o : Exec Page Unit) (p : Run Page) :
    Prop where
  gate : closed aim a q.session = false
  turn : ∃ earlier later, operations c (action c) aim a = earlier ++ o :: later ∧ earlier.forM id q = (.ok (), p)

theorem action_read (read : reading c raw r = (.ok (some a), q)) :
    action c base raw r = perform c (action c) base a q := by
  rw [action_eq]
  exact Act.bind_ok read _

/-- The elements stay while an action is read. -/
theorem reading_forest (read : reading c raw r = (.ok (some a), q)) : q.session.forest = r.session.forest := by
  have used := (reading_uses c raw).1 r
  rw [read] at used
  exact Page.reaches_forest used

namespace Reached

/-- The elements are still those that the action began with. -/
theorem forest (reached : Reached c a aim q o p) : p.session.forest = q.session.forest := by
  obtain ⟨earlier, later, split, done⟩ := reached.turn
  have used : useRun.Allows (earlier.forM id) := by
    refine .forM _ fun o' member => ?_
    have there : o' ∈ operations c (action c) aim a := split ▸ List.mem_append_left _ member
    exact operations_use (action_uses c) aim a o' there
  have kept := Page.reaches_forest (used q)
  rwa [done] at kept

/-- An operation that fails ends the action. -/
theorem perform_error {e : Failure} {s : Run Page} (reached : Reached c a aim q o p)
    (aims : Aims c base a q aim) (failed : o p = (.error e, s)) :
    perform c (action c) base a q = (.error e, s) := by
  obtain ⟨earlier, later, split, done⟩ := reached.turn
  rw [perform_aims aims, reached.gate, split, Act.forM_append]
  exact (Act.bind_ok done _).trans (Act.bind_error failed _)

end Reached

/-! ## Blank targets -/

/-- No hollow element is at the place that the hints ask for. -/
def NoneHollow (f : Page.Forest) (aim : Aim) : Prop :=
  ∀ j, aim.hints.Asks (Page.hollows f aim.scope).length j → (Page.hollows f aim.scope)[j]? = none

theorem noneHollow_of_nil {f : Page.Forest} (none : Page.hollows f aim.scope = []) : NoneHollow f aim := by
  intro j _
  rw [none]
  rfl

/-- A blank target keeps an action off the page exactly where there is no hollow element for it. A blank
`exist` target closes the gate exactly if there are no hollow elements, and a closed gate ends the action.
Behind the gate, an operation with a blank target misses it exactly if no hollow element is at the place
that the hints ask for, and this ends the action. -/
theorem blank_misses_iff (shown : r.session.forest = (Page.Forest.build document).1)
    (read : reading c raw r = (.ok (some a), q)) :
    ((¬ ∃ aim, Aims c base a q aim) → ∃ e, action c base raw r = (.error e, q)) ∧
    ∀ aim, Aims c base a q aim →
      (∀ t, a.exist = some t → Text.trim t = "" →
        (closed aim a q.session = true ↔ Page.hollows q.session.forest aim.scope = [])) ∧
      (closed aim a q.session = true → action c base raw r = (.ok (), q)) ∧
      ∀ t o p, Reached c a aim q o p → Seeks c aim a p t o → Text.trim t = "" →
        (Misses p (o p) ↔ NoneHollow q.session.forest aim) ∧
        (Misses p (o p) → action c base raw r = o p) := by
  rw [action_read read]
  have ordered : q.session.forest.Ordered := Page.build_ordered ((reading_forest read).trans shown)
  refine ⟨perform_aimless, fun aim aims => ⟨fun t gate blank => ?_, fun shut => ?_, ?_⟩⟩
  · rw [closed_iff gate, Page.matchesOf_blank ordered (by rw [blank]; rfl)]
  · rw [perform_aims aims, if_pos shut]
  · intro t o p reached seeks blank
    constructor
    · rw [seeks.misses_iff aims.single, reached.forest, Page.matchesOf_blank ordered blank]
      rfl
    · rintro ⟨e, source, _, failed⟩
      rw [failed]
      exact reached.perform_error aims failed

/-- A page on which nothing has happened yet, and a variable without fields. -/
def userPage (document : List Page.Element) : Run Page :=
  { Run.fresh (.ofDocument document) default .empty with bag := ⟨[("user", .obj [])]⟩ }

/-- An input, which has no text. -/
def emptyField : Page.Element := .mk (.ofTag "input") ⟨"", false, 0⟩ none []

def nameLabel : Page.Element := .mk { Page.Traits.ofTag "p" with text := "Name" } ⟨"", false, 0⟩ none []

/-- An action at a target that the variable does not give. -/
def atMissing (more : Fields) : Json := .obj (("loc", .str "\x7buser.field\x7d") :: more)

/-- An input without text is taken for the element that a blank target means: it passes the gate, and the
text is typed into it. -/
theorem emptyField_filled : ¬ ∀ (c : Setting) (base : Locator) (raw : Json) (r q : Run Page) (a : Action)
    (t : String), reading c raw r = (.ok (some a), q) → a.exist = some t → a.loc = some t →
      Text.trim t = "" → (action c base raw r).2.session.history = q.session.history := by
  intro always
  have read : reading bareSetting
      (atMissing [("exist", .str "\x7buser.field\x7d"), ("type", .str "secret")]) (userPage [emptyField]) =
      (.ok (some { Action.empty with loc := some "", exist := some "", type := some "secret" }),
        userPage [emptyField]) := by with_unfolding_all rfl
  have same := always bareSetting .page _ _ _ _ "" read rfl rfl rfl
  exact absurd same (by decide +kernel)

/-- A key that is to be pressed at the missing target. -/
def pressMissing : Action := { Action.empty with loc := some "", press := some "Enter" }

/-- On a page without hollow elements no key is pressed, and the action fails. -/
theorem pressMissing_misses :
    (userPage [nameLabel]).session.forest = (Page.Forest.build [nameLabel]).1 ∧
      reading bareSetting (atMissing [("press", .str "Enter")]) (userPage [nameLabel]) =
        (.ok (some pressMissing), userPage [nameLabel]) ∧
      Misses (userPage [nameLabel]) (press wholePage pressMissing "Enter" (userPage [nameLabel])) ∧
      action bareSetting .page (atMissing [("press", .str "Enter")]) (userPage [nameLabel]) =
        press wholePage pressMissing "Enter" (userPage [nameLabel]) := by
  have shown : (userPage [nameLabel]).session.forest = (Page.Forest.build [nameLabel]).1 := rfl
  have read : reading bareSetting (atMissing [("press", .str "Enter")]) (userPage [nameLabel]) =
      (.ok (some pressMissing), userPage [nameLabel]) := by with_unfolding_all rfl
  have aims : Aims bareSetting .page pressMissing (userPage [nameLabel]) wholePage := ⟨rfl, by decide, rfl⟩
  have reached : Reached bareSetting pressMissing wholePage (userPage [nameLabel])
      (press wholePage pressMissing "Enter") (userPage [nameLabel]) := by
    refine ⟨rfl, ?_⟩
    exact ⟨[pure (), pure (), pure (), pure (), pure ()], _, rfl, rfl⟩
  have seeks : Seeks bareSetting wholePage pressMissing (userPage [nameLabel]) ""
      (press wholePage pressMissing "Enter") := .press "Enter" rfl
  obtain ⟨misses, ends⟩ := ((blank_misses_iff shown read).2 wholePage aims).2.2 _ _ _ reached seeks rfl
  have missed := misses.mpr (noneHollow_of_nil (by decide +kernel))
  exact ⟨shown, read, missed, ends missed⟩

end PageSpec.Exec
