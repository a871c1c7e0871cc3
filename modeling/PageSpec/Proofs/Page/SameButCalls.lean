import PageSpec.Page.Session
import PageSpec.Proofs.Browser.Alike
/-!
Pages that are the same but for the recorded calls. The record is written and never read: such pages answer alike,
and stay the same but for their records.
-/
namespace PageSpec.Page

/-- Equal but for the recorded calls. -/
def SameButCalls (p q : Page) : Prop := ∃ calls, q = { p with history := calls }

theorem SameButCalls.refl (p : Page) : p.SameButCalls p := ⟨p.history, rfl⟩

/-! ## Building blocks -/

/-- It makes no difference which calls are recorded. -/
theorem record_agrees (call call' : Call) : Agree SameButCalls (record call) (record call') := by
  refine .modify ?_
  rintro p _ ⟨calls, rfl⟩
  exact ⟨_, rfl⟩

/-- Looking at anything but the record. -/
theorem look_agrees {α : Type} {f : Page → α} (apart : ∀ p calls, f { p with history := calls } = f p) :
    Agree SameButCalls (do return f (← get)) (do return f (← get)) := by
  refine .get ?_
  rintro p _ ⟨calls, rfl⟩
  rw [apart p calls]
  exact .pure (f p)

/-- Changes of anything but the record. -/
theorem modify_agrees {f : Page → Page} (apart : ∀ p calls, f { p with history := calls } = { f p with history := calls }) :
    Agree SameButCalls (modify f) (modify f) := by
  refine .modify ?_
  rintro p _ ⟨calls, rfl⟩
  exact ⟨calls, apart p calls⟩

theorem matches_agrees (l : Locator) : Agree SameButCalls (matches_ l) (matches_ l) := by
  refine .get ?_
  rintro p _ ⟨calls, rfl⟩
  cases resolve p.forest l with
  | ok es => exact .pure es
  | error e => exact .throw _

theorem located_agrees (l : Locator) : Agree SameButCalls (located l) (located l) := by
  refine (matches_agrees l).bind fun es => ?_
  cases es with
  | nil => exact .throw _
  | cons i es => exact .pure i

theorem traitsAt_agrees (i : Nat) : Agree SameButCalls (traitsAt i) (traitsAt i) := look_agrees fun _ _ => rfl

theorem inputAt_agrees (i : Nat) : Agree SameButCalls (inputAt i) (inputAt i) := look_agrees fun _ _ => rfl

theorem change_agrees (i : Nat) (f : Input → Input) : Agree SameButCalls (change i f) (change i f) :=
  modify_agrees fun _ _ => rfl

theorem recorded_agrees (call : Call) (l : Locator) : Agree SameButCalls (recorded call l) (recorded call l) :=
  (record_agrees call call).bind fun _ => located_agrees l

/-! ## Capabilities -/

theorem click_agrees (l : Locator) (force : Bool) : Agree SameButCalls (click l force) (click l force) := by
  refine (record_agrees _ _).bind fun _ => (located_agrees l).bind fun i => (traitsAt_agrees i).bind fun t => .get ?_
  rintro p _ ⟨calls, rfl⟩
  refine .when (.throw _) (.when (change_agrees i _) ?_)
  cases t.navigatesTo with
  | none => exact .pure ()
  | some url => exact modify_agrees fun _ _ => rfl

theorem setChecked_agrees (l : Locator) (checked : Bool) :
    Agree SameButCalls (setChecked l checked) (setChecked l checked) := by
  refine (record_agrees _ _).bind fun _ => (located_agrees l).bind fun i => (traitsAt_agrees i).bind fun t => ?_
  exact .ite (change_agrees i _) ((Agree.throw _).bind fun _ => change_agrees i _)

theorem selectOptions_agrees (l : Locator) (choice : Choice) :
    Agree SameButCalls (selectOptions l choice) (selectOptions l choice) := by
  refine (record_agrees _ _).bind fun _ => (located_agrees l).bind fun i => (traitsAt_agrees i).bind fun t => ?_
  refine .ite ?chosen ((Agree.throw _).bind fun _ => ?chosen)
  refine .get ?_
  rintro p _ ⟨calls, rfl⟩
  cases choose (optionsOf p.forest i) choice with
  | none => exact .throw _
  | some vs =>
    cases vs with
    | nil => exact .pure []
    | cons v vs => exact (change_agrees i _).bind fun _ => .pure _

theorem awaitResponse_agrees (m : Network.Matcher) (timeout : Nat) :
    Agree SameButCalls (awaitResponse m timeout) (awaitResponse m timeout) := by
  refine (record_agrees _ _).bind fun _ => .get ?_
  rintro p _ ⟨calls, rfl⟩
  cases nextResponse m p.responses with
  | none => exact (modify_agrees fun _ _ => rfl).bind fun _ => .throw _
  | some found => exact (modify_agrees fun _ _ => rfl).bind fun _ => .pure _

theorem isVisible_agrees (l : Locator) : Agree SameButCalls (Browser.isVisible l) (Browser.isVisible l) := by
  refine (matches_agrees l).bind fun es => ?_
  cases es with
  | nil => exact .pure false
  | cons i es => exact look_agrees fun _ _ => rfl

/-- Pages that are the same but for the recorded calls answer alike. -/
theorem sameButCalls_alike : Browser.Alike SameButCalls where
  navigate url := (record_agrees _ _).bind fun _ => modify_agrees fun _ _ => rfl
  currentUrl := look_agrees fun _ _ => rfl
  count l := (matches_agrees l).bind fun _ => .pure _
  click := click_agrees
  hover l := (recorded_agrees _ l).bind fun _ => .pure _
  fill l text := (recorded_agrees _ l).bind fun i => change_agrees i _
  typeText l text _ := (recorded_agrees _ l).bind fun i => change_agrees i _
  press l chord := by
    refine (record_agrees _ _).bind fun _ => ?_
    cases l with
    | none => exact .pure _
    | some l => exact (located_agrees l).bind fun _ => .pure _
  setChecked := setChecked_agrees
  selectOptions := selectOptions_agrees
  attachFiles l paths := (record_agrees _ _).bind fun _ => (located_agrees l).bind fun i =>
    (traitsAt_agrees i).bind fun _ => change_agrees i _
  textContent l := (located_agrees l).bind fun _ => look_agrees fun _ _ => rfl
  inputValue l := (located_agrees l).bind fun i => (inputAt_agrees i).bind fun _ => .pure _
  attributeOf l _ := (located_agrees l).bind fun i => (traitsAt_agrees i).bind fun _ => .pure _
  tagName l := (located_agrees l).bind fun i => (traitsAt_agrees i).bind fun _ => .pure _
  fileCount l := (located_agrees l).bind fun i => (inputAt_agrees i).bind fun _ => .pure _
  isVisible := isVisible_agrees
  scrollIntoView l := (recorded_agrees _ l).bind fun _ => .pure _
  scrollPage _ := record_agrees _ _
  screenshot l _ := by
    refine (record_agrees _ _).bind fun _ => ?_
    cases l with
    | none => exact .pure picture
    | some l => exact (located_agrees l).bind fun _ => .pure picture
  pageText := look_agrees fun _ _ => rfl
  awaitResponse := awaitResponse_agrees
  route _ := (record_agrees _ _).bind fun _ => modify_agrees fun _ _ => rfl
  unroute _ := (record_agrees _ _).bind fun _ => modify_agrees fun _ _ => rfl

end PageSpec.Page
