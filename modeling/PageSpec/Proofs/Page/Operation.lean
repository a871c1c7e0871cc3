import PageSpec.Proofs.Page.Locating
import PageSpec.Proofs.Page.Unmoved
/-!
What an operation may change on a page in memory, read off its form: one part of the input of one element,
the first one that its locator stands for. Everything else about the elements is left alone, also by
operations that fail, so that no locator stands for other elements afterwards.
-/
namespace PageSpec
namespace Browser

/-- What can be done in an open session, other than looking at it. -/
inductive Operation where
  | navigate (url : String)
  | click (l : Locator) (force : Bool)
  | hover (l : Locator)
  | fill (l : Locator) (text : String)
  | typeText (l : Locator) (text : String) (delay : Nat)
  | press (l : Option Locator) (chord : String)
  | setChecked (l : Locator) (checked : Bool)
  | selectOptions (l : Locator) (choice : Choice)
  | attachFiles (l : Locator) (paths : List String)
  | scrollIntoView (l : Locator)
  | scrollPage (goal : PageScroll)
  | screenshot (l : Option Locator) (fullPage : Bool)
  | awaitResponse (m : Network.Matcher) (timeout : Nat)
  | route (rule : Network.Rule)
  | unroute (source : String)
  | close

/-- Does it, whatever it yields. -/
def Operation.perform {σ : Type} [Browser σ] : Operation → Act σ Unit
  | .navigate url => Browser.navigate url
  | .click l force => Browser.click l force
  | .hover l => Browser.hover l
  | .fill l text => Browser.fill l text
  | .typeText l text delay => Browser.typeText l text delay
  | .press l chord => Browser.press l chord
  | .setChecked l checked => Browser.setChecked l checked
  | .selectOptions l choice => do let _ ← Browser.selectOptions l choice
  | .attachFiles l paths => Browser.attachFiles l paths
  | .scrollIntoView l => Browser.scrollIntoView l
  | .scrollPage goal => Browser.scrollPage goal
  | .screenshot l fullPage => do let _ ← Browser.screenshot l fullPage
  | .awaitResponse m timeout => do let _ ← Browser.awaitResponse m timeout
  | .route rule => Browser.route rule
  | .unroute source => Browser.unroute source
  | .close => Browser.close

theorem Operation.perform_touches {σ : Type} [Browser σ] (o : Operation) (p : σ) :
    Touch p (o.perform p).2 := by
  cases o with
  | navigate url => exact .navigate url p
  | click l force => exact .click l force p
  | hover l => exact .hover l p
  | fill l text => exact .fill l text p
  | typeText l text delay => exact .typeText l text delay p
  | press l chord => exact .press l chord p
  | setChecked l checked => exact .setChecked l checked p
  | selectOptions l choice => rw [perform, Act.discard_snd]; exact .selectOptions l choice p
  | attachFiles l paths => exact .attachFiles l paths p
  | scrollIntoView l => exact .scrollIntoView l p
  | scrollPage goal => exact .scrollPage goal p
  | screenshot l full => rw [perform, Act.discard_snd]; exact .screenshot l full p
  | awaitResponse m timeout => rw [perform, Act.discard_snd]; exact .awaitResponse m timeout p
  | route rule => exact .route rule p
  | unroute source => exact .unroute source p
  | close => exact .close p

end Browser

namespace Page

/-- A part of an input. -/
inductive Part where
  | value | checked | files
  deriving DecidableEq, Repr

/-- Two inputs agree in every part but this one. -/
def Part.AgreeBut : Part → Input → Input → Prop
  | .value, s, t => t = { s with value := t.value }
  | .checked, s, t => t = { s with checked := t.checked }
  | .files, s, t => t = { s with files := t.files }

theorem Part.AgreeBut.refl (part : Part) (s : Input) : part.AgreeBut s s := by
  cases part <;> rfl

theorem Part.AgreeBut.trans {part : Part} {s t u : Input} (first : part.AgreeBut s t)
    (second : part.AgreeBut t u) : part.AgreeBut s u := by
  cases part <;> · rw [AgreeBut] at first second ⊢; rw [second, first]

/-- Where an operation may write, and what part of the input there. -/
def writes? : Browser.Operation → Option (Locator × Part)
  | .fill l _ | .typeText l _ _ | .selectOptions l _ => some (l, .value)
  | .click l _ | .setChecked l _ => some (l, .checked)
  | .attachFiles l _ => some (l, .files)
  | .navigate _ | .hover _ | .press _ _ | .scrollIntoView _ | .scrollPage _ | .screenshot _ _
  | .awaitResponse _ _ | .route _ | .unroute _ | .close => none

/-! ## Inputs -/

/-- Changing no input. -/
abbrev sameInputs : Drift Page := .keeping (·.inputs)

/-- Changing one part of the input at one place. -/
def writing (i : Nat) (part : Part) : Drift Page where
  Moves p q := ∃ f : Input → Input, (∀ s, part.AgreeBut s (f s)) ∧ q.inputs = p.inputs.modify i f
  refl p := ⟨id, fun s => .refl part s, (List.modify_id i p.inputs).symm⟩
  trans := by
    rintro p q t ⟨f, agree, written⟩ ⟨g, agree', written'⟩
    refine ⟨g ∘ f, fun s => (agree s).trans (agree' (f s)), ?_⟩
    rw [written', written, List.modify_modify_eq]

variable {α : Type} {i : Nat} {part : Part}

theorem writing_of_same {a : Act Page α} (same : sameInputs.Allows a) : (writing i part).Allows a := by
  intro p
  obtain ⟨f, agree, kept⟩ := (writing i part).refl p
  exact ⟨f, agree, (same p).trans kept⟩

theorem change_writes {f : Input → Input} (agree : ∀ s, part.AgreeBut s (f s)) :
    (writing i part).Allows (change i f) := fun _ => ⟨f, agree, rfl⟩

theorem record_same (c : Call) : sameInputs.Allows (record c) := fun _ => rfl

theorem same_of_looking {a : Act Page α} (looked : looking.Holds a) : sameInputs.Allows a :=
  fun p => congrArg Page.inputs (looked.1 p)

/-- At most the input of the first element of a locator is another one, in one part. -/
def Writes (l : Locator) (part : Part) (p q : Page) : Prop :=
  q.inputs = p.inputs ∨ ∃ i rest, resolve p.forest l = .ok (i :: rest) ∧ (writing i part).Moves p q

/-- A locator either leads to a first element or nowhere, and then nothing is done. -/
theorem located_writes {l : Locator} {f : Nat → Act Page α} (each : ∀ i, (writing i part).Allows (f i))
    (p : Page) : Writes l part p ((located l >>= f) p).2 := by
  have lost : ∀ e, (located l p).1 = .error e → ((located l >>= f) p).2 = p := fun e failed => by
    have still := (located_still l).1.still_eq p
    rw [failed] at still
    rw [Act.bind_error still]
  cases found : resolve p.forest l with
  | error e =>
    refine .inl (congrArg Page.inputs (lost (.session (.selector e.text e.error)) ?_))
    simp only [located, matches_, Act.bind_apply, Act.get_apply, found, Act.throw_apply]
  | ok es =>
    cases es with
    | nil =>
      refine .inl (congrArg Page.inputs (lost (.session (.noElement l)) ?_))
      rw [located, Act.bind_ok (matches_ok found)]
      rfl
    | cons i rest =>
      rw [Act.bind_ok (located_cons found)]
      exact .inr ⟨i, rest, found, each i p⟩

/-- A call that is recorded first makes no difference to that. -/
theorem recorded_writes (c : Call) (part : Part) {l : Locator} {f : Nat → Act Page α}
    (each : ∀ i, (writing i part).Allows (f i)) (p : Page) :
    Writes l part p ((record c >>= fun _ => located l >>= f) p).2 :=
  located_writes each { p with history := p.history ++ [c] }

/-! ## Operations -/

/-- What writes nowhere changes no input. -/
theorem perform_same {o : Browser.Operation} (idle : writes? o = none) :
    sameInputs.Allows (o.perform : Act Page Unit) := by
  have aimed (c : Call) (l : Locator) : sameInputs.Allows (recorded c l) :=
    .bind (record_same c) fun _ => same_of_looking (located_still l)
  cases o with
  | click | fill | typeText | setChecked | selectOptions | attachFiles => cases idle
  | navigate url => exact .bind (record_same _) fun _ => .modify fun _ => rfl
  | hover l => exact .bind (aimed _ l) fun _ => .pure _
  | press l chord =>
    refine .bind (record_same _) fun _ => ?_
    cases l with
    | none => exact .pure _
    | some l => exact .bind (same_of_looking (located_still l)) fun _ => .pure _
  | scrollIntoView l => exact .bind (aimed _ l) fun _ => .pure _
  | scrollPage goal => exact record_same _
  | screenshot l full =>
    refine .bind (.bind (record_same _) fun _ => ?_) fun _ => .pure _
    cases l with
    | none => exact .bind (.pure ()) fun _ => .pure picture
    | some l => exact .bind (same_of_looking (located_still l)) fun _ => .pure picture
  | awaitResponse m timeout =>
    refine .bind (.bind (record_same _) fun _ => .bind .get fun p => ?_) fun _ => .pure _
    split
    · exact .bind (.modify fun _ => rfl) fun _ => .pure _
    · exact .bind (.modify fun _ => rfl) fun _ => .throw _
  | route rule => exact .bind (record_same _) fun _ => .modify fun _ => rfl
  | unroute source => exact .bind (record_same _) fun _ => .modify fun _ => rfl
  | close => exact record_same _

theorem click_writes (l : Locator) (force : Bool) (p : Page) :
    Writes l .checked p (click l force p).2 := by
  refine recorded_writes _ _ (fun i => ?_) p
  refine .bind (writing_of_same (same_of_looking (traitsAt_still i))) fun t => .bind .get fun _ => ?_
  refine .when (.throw _) (.when (change_writes fun _ => rfl) ?_)
  split
  · exact writing_of_same (.modify fun _ => rfl)
  · exact .pure _

theorem fill_writes (l : Locator) (text : String) (p : Page) :
    Writes l .value p ((Browser.fill l text : Act Page Unit) p).2 :=
  recorded_writes (.fill l text) .value (f := fun i => change i fun s => { s with value := text })
    (fun _ => change_writes fun _ => rfl) p

theorem typeText_writes (l : Locator) (text : String) (delay : Nat) (p : Page) :
    Writes l .value p ((Browser.typeText l text delay : Act Page Unit) p).2 :=
  recorded_writes (.typeText l text) .value (f := fun i => change i fun s => { s with value := s.value ++ text })
    (fun _ => change_writes fun _ => rfl) p

theorem setChecked_writes (l : Locator) (checked : Bool) (p : Page) :
    Writes l .checked p (setChecked l checked p).2 := by
  refine recorded_writes _ _ (fun i => ?_) p
  refine .bind (writing_of_same (same_of_looking (traitsAt_still i))) fun t => ?_
  exact .ite (change_writes fun _ => rfl) (.bind (.throw _) fun _ => change_writes fun _ => rfl)

theorem selectOptions_writes (l : Locator) (choice : Choice) (p : Page) :
    Writes l .value p (selectOptions l choice p).2 := by
  refine recorded_writes _ _ (fun i => ?_) p
  refine .bind (writing_of_same (same_of_looking (traitsAt_still i))) fun t => ?_
  refine .ite ?chosen (.bind (.throw _) fun _ => ?chosen)
  refine .bind .get fun _ => ?_
  split
  · exact .throw _
  · exact .pure _
  · exact .bind (change_writes fun _ => rfl) fun _ => .pure _

theorem attachFiles_writes (l : Locator) (paths : List String) (p : Page) :
    Writes l .files p (attachFiles l paths p).2 := by
  refine recorded_writes _ _ (fun i => ?_) p
  exact .bind (writing_of_same (same_of_looking (traitsAt_still i))) fun _ => change_writes fun _ => rfl

/-- What writes somewhere writes to the first element of its locator. -/
theorem perform_writes {o : Browser.Operation} {l : Locator} (written : writes? o = some (l, part)) (p : Page) :
    Writes l part p ((o.perform : Act Page Unit) p).2 := by
  cases o with
  | navigate | hover | press | scrollIntoView | scrollPage | screenshot | awaitResponse | route | unroute
  | close => cases written
  | click l force => cases written; exact click_writes l force p
  | fill l text => cases written; exact fill_writes l text p
  | typeText l text delay => cases written; exact typeText_writes l text delay p
  | setChecked l checked => cases written; exact setChecked_writes l checked p
  | selectOptions l choice =>
    cases written
    rw [Browser.Operation.perform, Act.discard_snd]
    exact selectOptions_writes l choice p
  | attachFiles l paths => cases written; exact attachFiles_writes l paths p

/-- What an operation has left alone: the elements, so that every locator stands for the same ones as
before, and all inputs but one part of one of them, that of the first element which its locator stands
for. -/
structure Spares (o : Browser.Operation) (p q : Page) : Prop where
  forest : q.forest = p.forest
  resolves : ∀ l, resolve q.forest l = resolve p.forest l
  length : q.inputs.length = p.inputs.length
  sole : ∀ {i s t}, p.inputs[i]? = some s → q.inputs[i]? = some t → t ≠ s →
    ∃ l part rest, writes? o = some (l, part) ∧ resolve p.forest l = .ok (i :: rest) ∧ part.AgreeBut s t

section
variable {o : Browser.Operation} {p q : Page}

theorem spares_of_same (forest : q.forest = p.forest) (same : q.inputs = p.inputs) : Spares o p q where
  forest := forest
  resolves l := by rw [forest]
  length := congrArg List.length same
  sole here now other := by
    rw [same, here] at now
    exact absurd (Option.some.inj now).symm other

theorem Writes.spares {l : Locator} (forest : q.forest = p.forest) (written : writes? o = some (l, part))
    (writes : Writes l part p q) : Spares o p q := by
  rcases writes with same | ⟨i, rest, found, f, agree, changed⟩
  · exact spares_of_same forest same
  · refine ⟨forest, fun l => by rw [forest], by rw [changed, List.length_modify], ?_⟩
    intro j s t here now other
    rw [changed, List.getElem?_modify, here] at now
    by_cases first : i = j
    · simp only [first, ↓reduceIte, Option.map_eq_map, Option.map_some, Option.some.injEq] at now
      exact ⟨l, part, rest, written, first ▸ found, now ▸ agree s⟩
    · simp only [first, ↓reduceIte, Option.map_eq_map, Option.map_some, Option.some.injEq] at now
      exact absurd now.symm other

end

/-- No operation, whether it succeeds or fails, disturbs the elements of a page, and none changes more than
one part of one input. -/
theorem operation_spares (o : Browser.Operation) (p : Page) : Spares o p ((o.perform : Act Page Unit) p).2 := by
  have forest := (touch_recording (o.perform_touches p)).1
  cases written : writes? o with
  | none => exact spares_of_same forest (perform_same written p)
  | some place => exact (perform_writes written p).spares forest written

end Page
end PageSpec
