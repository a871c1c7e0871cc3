import PageSpec.Proofs.Execution.TypedText
import PageSpec.Proofs.Page.Picking
import PageSpec.Proofs.Page.Rendered
/-!
Clicks on a page in memory. A plain click is missed where the element is covered or not to be seen, and it is missed
before anything is done; the forced click after it is never missed. So a click that has found its element clicks it
once.
-/
namespace PageSpec

namespace Page
variable {p : Page} {l : Locator} {i : Nat} {es : List Nat} {n : Node} {s : Input}

/-- Plain clicks on an element are missed. -/
def obstructed (f : Forest) (i : Nat) (t : Traits) : Bool := t.covered || !f.visible i

/-- The page once an element was clicked: a toggle is turned, and the location is where the click leads. -/
def clicked (p : Page) (i : Nat) (t : Traits) (s : Input) : Page :=
  { p with
    inputs := p.inputs.set i { s with checked := if t.isToggle then !s.checked else s.checked }
    url := t.navigatesTo.getD p.url }

theorem traitsAt_ok (here : p.forest.node? i = some n) : traitsAt i p = (.ok n.traits, p) := by
  unfold traitsAt
  rw [Act.bind_ok (Act.get_apply p), here]
  rfl

theorem modify_held (held : p.inputs[i]? = some s) (f : Input → Input) : p.inputs.modify i f = p.inputs.set i (f s) := by
  rw [List.modify_eq_set_getElem?, held]
  rfl

theorem set_held (held : p.inputs[i]? = some s) : p.inputs.set i s = p.inputs := by
  obtain ⟨bound, rfl⟩ := List.getElem?_eq_some_iff.mp held
  exact List.set_getElem_self bound

/-- A click on an element that is there is missed without effect, or it has its whole effect. -/
theorem click_ok (found : resolve p.forest l = .ok (i :: es)) (here : p.forest.node? i = some n)
    (held : p.inputs[i]? = some s) (force : Bool) :
    click l force p = if !force && obstructed p.forest i n.traits
      then (.error (.session (.clickMissed l)), { p with history := p.history ++ [.click l force] })
      else (.ok (), { p.clicked i n.traits s with history := p.history ++ [.click l force] }) := by
  let q : Page := { p with history := p.history ++ [.click l force] }
  have noted : record (.click l force) p = (.ok (), q) := rfl
  have reached : located l q = (.ok i, q) := located_cons found
  have read : traitsAt i q = (.ok n.traits, q) := traitsAt_ok here
  unfold click obstructed clicked
  rw [Act.bind_ok noted, Act.bind_ok reached, Act.bind_ok read, Act.bind_ok (Act.get_apply q)]
  split
  · rfl
  · cases n.traits.isToggle with
    | true =>
      have turned := modify_held held fun s => { s with checked := !s.checked }
      simp only [↓reduceIte, ← turned]
      cases n.traits.navigatesTo <;> rfl
    | false =>
      simp only [Bool.false_eq_true, ↓reduceIte, set_held held]
      cases n.traits.navigatesTo <;> rfl

/-- The calls of a click that is forced where the plain one is missed. -/
def clickCalls (p : Page) (l : Locator) (i : Nat) (t : Traits) : List Call :=
  if obstructed p.forest i t then [.click l false, .click l true] else [.click l false]

/-- A missed click and the forced one after it come to one click. -/
theorem click_retried (found : resolve p.forest l = .ok (i :: es)) (here : p.forest.node? i = some n)
    (held : p.inputs[i]? = some s) : (tryCatch (click l false) fun _ => click l true) p =
      (.ok (), { p.clicked i n.traits s with history := p.history ++ p.clickCalls l i n.traits }) := by
  have plain := click_ok found here held false
  unfold clickCalls
  rw [Act.tryCatch_apply, plain]
  cases missed : obstructed p.forest i n.traits with
  | false => rfl
  | true =>
    let q : Page := { p with history := p.history ++ [.click l false] }
    have forced : click l true q = (.ok (), { q.clicked i n.traits s with history := q.history ++ [.click l true] }) :=
      click_ok (p := q) found here held true
    have both : p.history ++ [.click l false] ++ [.click l true] = p.history ++ [.click l false, .click l true] :=
      List.append_assoc ..
    exact forced.trans (both ▸ rfl)

end Page

namespace Exec

/-! ## Finding what to click -/

section
variable {aim : Aim} {r : Run Page}

/-- Whatever is looked for is one element or not there, and the run stays as it is. -/
theorem finding_ends (aim : Aim) (all : Locator) (note : String) (r : Run Page) :
    (∃ e, finding aim all note r = (.error e, r)) ∨
      ∃ l i, finding aim all note r = (.ok l, r) ∧ Page.resolve r.session.forest l = .ok [i] := by
  unfold finding
  by_cases mixed : aim.hints.Mixed
  · rw [HintView.pick_mixed mixed]
    exact .inl ⟨_, rfl⟩
  · obtain ⟨pick, picked, place⟩ := Page.resolve_asked mixed
    have chosen : (lift aim.hints.pick : Exec Page Pick) r = (.ok pick, r) := by rw [picked]; rfl
    rw [Act.bind_ok chosen]
    cases found : Page.resolve r.session.forest all with
    | error e =>
      obtain ⟨e', lost⟩ := Page.resolve_pick_lost found pick
      exact .inl ⟨_, Act.bind_error (onSession_still (Page.ensureFound_lost lost ..)) _⟩
    | ok ms =>
      obtain ⟨o, narrowed, _⟩ := place found
      have ensured := Page.ensureFound_ok narrowed .target note aim.hints
      cases o with
      | none => exact .inl ⟨_, Act.bind_error (onSession_still ensured) _⟩
      | some i => exact .inr ⟨_, i, Act.bind_ok (onSession_still ensured) _, narrowed⟩

theorem one_ends (aim : Aim) (t : String) (r : Run Page) : (∃ e, aim.one t r = (.error e, r)) ∨
    ∃ l i, aim.one t r = (.ok l, r) ∧ Page.resolve r.session.forest l = .ok [i] := by
  rw [one_eq]
  exact finding_ends aim _ t r

/-- What a click means is one element or not there, and the run stays as it is. -/
theorem clickTarget_ends (aim : Aim) (raw : String) (r : Run Page) :
    (∃ e, clickTarget aim raw r = (.error e, r)) ∨
      ∃ l i, clickTarget aim raw r = (.ok l, r) ∧ Page.resolve r.session.forest l = .ok [i] := by
  unfold clickTarget
  cases typedPrefix? raw with
  | none => exact one_ends aim raw r
  | some before =>
    dsimp only
    rw [Act.bind_ok (Act.get_apply r)]
    cases r.memo.typed.filter (· ≠ "") with
    | none => exact .inl ⟨_, rfl⟩
    | some text =>
      dsimp only
      split
      · exact one_ends aim text r
      · exact finding_ends aim ((aim.scope.allOf before).text text) _ r

end

/-! ## Clicking it -/

/-- A click whose target is not found leaves everything as it is. One whose target is found succeeds and comes to
one click on the one element there, whether the element is to be seen, hidden or covered; a forced click follows
exactly if the plain one was missed. -/
theorem click_lands {document : List Page.Element} {r : Run Page} (rendered : r.session.Renders document) (aim : Aim)
    (raw : String) :
    (∀ e, (clickTarget aim (Text.trim raw) r).1 = .error e → click aim raw r = (.error e, r)) ∧
    ∀ l, (clickTarget aim (Text.trim raw) r).1 = .ok l → ∃ i n s, Page.resolve r.session.forest l = .ok [i] ∧
      r.session.forest.node? i = some n ∧ r.session.inputs[i]? = some s ∧
      click aim raw r = (.ok (), { r with session :=
        { r.session.clicked i n.traits s with
          history := r.session.history ++ r.session.clickCalls l i n.traits } }) := by
  rw [click_eq]
  rcases clickTarget_ends aim (Text.trim raw) r with ⟨e, lost⟩ | ⟨l, i, found, stands⟩
  · rw [lost, Act.bind_error lost]
    exact ⟨fun _ same => Except.error.inj same ▸ rfl, nofun⟩
  · rw [found, Act.bind_ok found]
    refine ⟨nofun, ?_⟩
    rintro _ ⟨⟩
    obtain ⟨n, s, here, held⟩ := rendered.matched stands List.mem_cons_self
    refine ⟨i, n, s, stands, here, held, ?_⟩
    have once := Page.click_retried stands here held
    exact onSession_ok once

/-- A box that leads elsewhere and is covered. -/
def coveredTraits : Page.Traits :=
  { Page.Traits.ofTag "input" with attrs := [("type", "checkbox")], covered := true, navigatesTo := some "/next" }
def coveredBox : Page.Element := .mk coveredTraits ⟨"", false, 0⟩ none []

/-- The covered box is turned once, by the forced click. -/
theorem coveredBox_turned :
    let r := Run.fresh (Page.ofDocument [coveredBox]) default .empty
    let l := (Locator.page.css "input").pick .first
    r.session.Renders [coveredBox] ∧ (clickTarget wholePage (Text.trim " input") r).1 = .ok l ∧
      click wholePage " input" r = (.ok (), { r with session :=
        { r.session with inputs := [⟨"", true, 0⟩], url := "/next", history := [.click l false, .click l true] } }) := by
  intro r l
  have rendered : r.session.Renders [coveredBox] := Page.ofDocument_renders _
  have found : (clickTarget wholePage (Text.trim " input") r).1 = .ok l := eq_ok_of_toOption (by decide +kernel)
  obtain ⟨i, n, s, stands, here, held, done⟩ := (click_lands rendered wholePage " input").2 l found
  have first : Page.resolve r.session.forest l = .ok [0] := eq_ok_of_toOption (by decide +kernel)
  cases first.symm.trans stands
  cases here
  cases held
  have toggle : coveredTraits.isToggle = true := by decide +kernel
  have covered : Page.obstructed r.session.forest 0 coveredTraits = true := rfl
  refine ⟨rendered, found, done.trans ?_⟩
  simp only [Page.clicked, Page.clickCalls, toggle, covered]
  rfl

end Exec
end PageSpec
