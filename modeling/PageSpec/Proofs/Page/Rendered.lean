import PageSpec.Proofs.Browser.Request
import PageSpec.Proofs.Page.Matching
import PageSpec.Proofs.Page.Unmoved
/-!
Pages that render a document. The elements are those of the document, and each of them has its input. A new page
renders its document and goes on rendering it however it is used, so that whatever a locator stands for is there with
its input.
-/
namespace PageSpec.Page

/-- The elements are those of a document, and each has its input. -/
structure Renders (document : List Element) (p : Page) : Prop where
  forest : p.forest = (Forest.build document).1
  inputs : p.inputs.length = p.forest.nodes.length

theorem ofDocument_renders (document : List Element) : (ofDocument document).Renders document := ⟨rfl, build_paired document⟩

section
variable {document : List Element} {p q : Page} {l : Locator} {es : List Nat} {i : Nat}

theorem Renders.receive (rendered : p.Renders document) (r : Network.Response) : (p.receive r).Renders document :=
  ⟨rendered.forest, rendered.inputs⟩

/-- What a locator stands for is there, and so is its input. -/
theorem Renders.matched (rendered : p.Renders document) (found : resolve p.forest l = .ok es) (member : i ∈ es) :
    ∃ n s, p.forest.node? i = some n ∧ p.inputs[i]? = some s := by
  have bound : i < p.forest.nodes.length := by
    rw [rendered.forest] at found ⊢
    exact resolve_lt found i member
  exact ⟨_, _, List.getElem?_eq_getElem bound, List.getElem?_eq_getElem (rendered.inputs ▸ bound)⟩

/-! ## While it is used -/

/-- No input comes or goes. -/
def paired : Drift Page := .keeping fun p => p.inputs.length

theorem paired_of_looking {α : Type} {a : Act Page α} (looked : looking.Holds a) : paired.Allows a := fun p =>
  congrArg (fun q : Page => q.inputs.length) (looked.1 p)

theorem record_paired (call : Call) : paired.Allows (record call) := .modify fun _ => rfl

theorem change_paired (i : Nat) (f : Input → Input) : paired.Allows (change i f) := .modify fun _ => List.length_modify _ _ _

theorem recorded_paired (call : Call) (l : Locator) : paired.Allows (recorded call l) :=
  (record_paired call).bind fun _ => paired_of_looking (located_still l)

theorem click_paired (l : Locator) (force : Bool) : paired.Allows (click l force) := by
  refine (record_paired _).bind fun _ => (paired_of_looking (located_still l)).bind fun i => ?_
  refine (paired_of_looking (traitsAt_still i)).bind fun t => .bind .get fun p => ?_
  refine .when (.throw _) (.when (change_paired i _) ?_)
  split
  · exact .modify fun _ => rfl
  · exact .pure _

theorem setChecked_paired (l : Locator) (checked : Bool) : paired.Allows (setChecked l checked) := by
  refine (record_paired _).bind fun _ => (paired_of_looking (located_still l)).bind fun i => ?_
  refine (paired_of_looking (traitsAt_still i)).bind fun t => ?_
  exact .ite (change_paired i _) (.bind (.throw _) fun _ => change_paired i _)

theorem selectOptions_paired (l : Locator) (choice : Choice) : paired.Allows (selectOptions l choice) := by
  refine (record_paired _).bind fun _ => (paired_of_looking (located_still l)).bind fun i => ?_
  refine (paired_of_looking (traitsAt_still i)).bind fun t => ?_
  refine .ite ?chosen (.bind (.throw _) fun _ => ?chosen)
  refine .bind .get fun p => ?_
  split
  · exact .throw _
  · exact .pure _
  · exact (change_paired i _).bind fun _ => .pure _

theorem awaitResponse_paired (m : Network.Matcher) (timeout : Nat) : paired.Allows (awaitResponse m timeout) := by
  refine (record_paired _).bind fun _ => .bind .get fun p => ?_
  split
  · exact .bind (.modify fun _ => rfl) fun _ => .pure _
  · exact .bind (.modify fun _ => rfl) fun _ => .throw _

theorem touch_paired (touched : Browser.Touch p q) : q.inputs.length = p.inputs.length := by
  have looked {α : Type} {a : Act Page α} (held : looking.Holds a) : (a p).2.inputs.length = p.inputs.length :=
    paired_of_looking held p
  cases touched with
  | start | close | scrollPage | navigate | route | unroute => rfl
  | currentUrl => exact looked reads_still.currentUrl
  | pageText => exact looked reads_still.pageText
  | count l => exact looked (reads_still.count l)
  | textContent l => exact looked (reads_still.textContent l)
  | inputValue l => exact looked (reads_still.inputValue l)
  | attributeOf l name => exact looked (reads_still.attributeOf l name)
  | tagName l => exact looked (reads_still.tagName l)
  | fileCount l => exact looked (reads_still.fileCount l)
  | isVisible l => exact looked (reads_still.isVisible l)
  | click l force => exact click_paired l force p
  | fill l text => exact (recorded_paired _ l).bind (fun i => change_paired i _) p
  | typeText l text delay => exact (recorded_paired _ l).bind (fun i => change_paired i _) p
  | hover l => exact (recorded_paired _ l).bind (fun _ => .pure _) p
  | scrollIntoView l => exact (recorded_paired _ l).bind (fun _ => .pure _) p
  | setChecked l checked => exact setChecked_paired l checked p
  | selectOptions l choice => exact selectOptions_paired l choice p
  | attachFiles l paths =>
    refine Drift.Allows.bind (record_paired _) (fun _ => (paired_of_looking (located_still l)).bind fun i => ?_) p
    exact (paired_of_looking (traitsAt_still i)).bind fun _ => change_paired i _
  | awaitResponse m timeout => exact awaitResponse_paired m timeout p
  | press l chord =>
    cases l with
    | none => rfl
    | some l => exact (recorded_paired _ l).bind (fun _ => .pure _) p
  | screenshot l full =>
    cases l with
    | none => rfl
    | some l => exact (recorded_paired _ l).bind (fun _ => .pure picture) p

/-- However long a page is used, it renders its document. -/
theorem reaches_renders (reached : Browser.Reaches p q) (rendered : p.Renders document) : q.Renders document := by
  have same := reaches_forest reached
  have kept : q.inputs.length = p.inputs.length := reached.moves (D := paired) touch_paired
  exact ⟨same.trans rendered.forest, by rw [kept, same, rendered.inputs]⟩

end
end PageSpec.Page
