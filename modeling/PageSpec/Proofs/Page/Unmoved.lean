import PageSpec.Page.Session
import PageSpec.Proofs.Browser.Touch
import PageSpec.Proofs.Page.Locating
/-!
What capabilities do to a page in memory. Looking at it leaves it as it is, so that an expectation is met
in time exactly if the first look meets it. Each of the others records one call of its own and changes no
elements: whatever a session goes through, every locator stands for the same elements as before. No
capability fails over the form of an action.
-/
namespace PageSpec.Page

/-! ## Looking -/

/-- Leaving a page as it is. -/
def looking : Bound Page := ⟨Drift.still, (·.isMalformed = false)⟩

theorem matches_still (l : Locator) : looking.Holds (matches_ l) := by
  refine .bind .get fun p => ?_
  split
  · exact .pure _
  · exact .throw rfl

theorem located_still (l : Locator) : looking.Holds (located l) := by
  refine .bind (matches_still l) fun found => ?_
  split
  · exact .pure _
  · exact .throw rfl

theorem traitsAt_still (i : Nat) : looking.Holds (traitsAt i) := .bind .get fun _ => .pure _

theorem inputAt_still (i : Nat) : looking.Holds (inputAt i) := .bind .get fun _ => .pure _

theorem isVisible_still (l : Locator) : looking.Holds (Browser.isVisible l : Act Page Bool) := by
  refine .bind (matches_still l) fun found => ?_
  split
  · exact .bind .get fun _ => .pure _
  · exact .pure _

/-- Looking at a page leaves no trace on it. -/
theorem reads_still : Browser.Reads looking where
  count l := .bind (matches_still l) fun _ => .pure _
  textContent l := .bind (located_still l) fun _ => .bind .get fun _ => .pure _
  inputValue l := .bind (located_still l) fun i => .bind (inputAt_still i) fun _ => .pure _
  attributeOf l _ := .bind (located_still l) fun i => .bind (traitsAt_still i) fun _ => .pure _
  tagName l := .bind (located_still l) fun i => .bind (traitsAt_still i) fun _ => .pure _
  fileCount l := .bind (located_still l) fun i => .bind (inputAt_still i) fun _ => .pure _
  isVisible := isVisible_still
  currentUrl := .bind .get fun _ => .pure _
  pageText := .bind .get fun _ => .pure _
  fails other := other

/-! ## Acting -/

/-- Recording some of the calls that `K` admits, and keeping the elements. -/
def recording (K : Call → Prop) : Bound Page where
  Moves p q := q.forest = p.forest ∧ ∃ calls, q.history = p.history ++ calls ∧ ∀ call ∈ calls, K call
  refl p := ⟨rfl, [], (List.append_nil _).symm, by simp⟩
  trans := by
    rintro p q t ⟨same, calls, recorded, admitted⟩ ⟨same', calls', recorded', admitted'⟩
    refine ⟨same'.trans same, calls ++ calls', by rw [recorded', recorded, List.append_assoc], ?_⟩
    exact fun call member => (List.mem_append.mp member).elim (admitted call) (admitted' call)
  May e := e.isMalformed = false

/-- Recording nothing, and keeping the elements. -/
abbrev silent : Bound Page := recording fun _ => False

/-- Recording this one call, whatever comes of it, and keeping the elements. -/
structure Records {α : Type} (call : Call) (a : Act Page α) : Prop where
  forest : ∀ p, (a p).2.forest = p.forest
  history : ∀ p, (a p).2.history = p.history ++ [call]
  formed : ∀ p e, (a p).1 = .error e → e.isMalformed = false

section
variable {K : Call → Prop} {call : Call}

theorem recording_of_looking {α : Type} {a : Act Page α} (looked : looking.Holds a) :
    (recording K).Holds a :=
  looked.mono (fun p q (same : q = p) => same ▸ (recording K).refl p) fun _ other => other

theorem record_records (call : Call) : Records call (record call) := ⟨fun _ => rfl, fun _ => rfl, nofun⟩

/-- What comes after the call may do anything that is not recorded. -/
theorem Records.bind {α β : Type} {a : Act Page α} {f : α → Act Page β} (first : Records call a)
    (rest : ∀ v, silent.Holds (f v)) : Records call (a >>= f) := by
  have each (p : Page) : ((a >>= f) p).2.forest = p.forest ∧
      ((a >>= f) p).2.history = p.history ++ [call] ∧
        ∀ e, ((a >>= f) p).1 = .error e → e.isMalformed = false := by
    have forest := first.forest p
    have history := first.history p
    rw [Act.bind_apply]
    rcases done : a p with ⟨e | v, q⟩
    · rw [done] at forest history
      refine ⟨forest, history, ?_⟩
      rintro _ ⟨⟩
      exact first.formed p e (congrArg Prod.fst done)
    · rw [done] at forest history
      obtain ⟨same, calls, recorded, none⟩ := (rest v).1 q
      obtain rfl := List.eq_nil_iff_forall_not_mem.mpr none
      refine ⟨same.trans forest, ?_, (rest v).2 q⟩
      rw [recorded, List.append_nil, history]
  exact ⟨fun p => (each p).1, fun p => (each p).2.1, fun p => (each p).2.2⟩

theorem Records.holds {α : Type} {a : Act Page α} (records : Records call a) (admitted : K call) :
    (recording K).Holds a :=
  ⟨fun p => ⟨records.forest p, [call], records.history p, by simpa using admitted⟩, records.formed⟩

theorem record_recording (admitted : K call) : (recording K).Holds (record call) :=
  (record_records call).holds admitted

/-- What changes neither the elements nor the record is within every recording. -/
theorem modify_recording {f : Page → Page} (same : ∀ p, (f p).forest = p.forest)
    (kept : ∀ p, (f p).history = p.history) : (recording K).Holds (modify f) :=
  .modify fun p => ⟨same p, [], by rw [kept, List.append_nil], by simp⟩

theorem change_recording (i : Nat) (f : Input → Input) : (recording K).Holds (change i f) :=
  modify_recording (fun _ => rfl) fun _ => rfl

end

/-! ## Capabilities -/

theorem recorded_records (call : Call) (l : Locator) : Records call (recorded call l) :=
  (record_records call).bind fun _ => recording_of_looking (located_still l)

theorem navigate_records (url : String) : Records (.navigate url) (Browser.navigate url : Act Page Unit) :=
  (record_records _).bind fun _ => modify_recording (fun _ => rfl) fun _ => rfl

theorem click_records (l : Locator) (force : Bool) : Records (.click l force) (click l force) := by
  refine (record_records _).bind fun _ => .bind (recording_of_looking (located_still l)) fun i => ?_
  refine .bind (recording_of_looking (traitsAt_still i)) fun t => .bind .get fun p => ?_
  refine .when (.throw rfl) (.when (change_recording i _) ?_)
  split
  · exact modify_recording (fun _ => rfl) fun _ => rfl
  · exact .pure _

theorem hover_records (l : Locator) : Records (.hover l) (Browser.hover l : Act Page Unit) :=
  (recorded_records _ l).bind fun _ => .pure _

theorem fill_records (l : Locator) (text : String) :
    Records (.fill l text) (Browser.fill l text : Act Page Unit) :=
  (recorded_records _ l).bind fun i => change_recording i _

theorem typeText_records (l : Locator) (text : String) (delay : Nat) :
    Records (.typeText l text) (Browser.typeText l text delay : Act Page Unit) :=
  (recorded_records _ l).bind fun i => change_recording i _

theorem press_records (l : Option Locator) (chord : String) :
    Records (.press l chord) (Browser.press l chord : Act Page Unit) := by
  refine (record_records _).bind fun _ => ?_
  cases l with
  | none => exact .pure _
  | some l => exact .bind (recording_of_looking (located_still l)) fun _ => .pure _

theorem setChecked_records (l : Locator) (checked : Bool) :
    Records (.setChecked l checked) (setChecked l checked) := by
  refine (record_records _).bind fun _ => .bind (recording_of_looking (located_still l)) fun i => ?_
  refine .bind (recording_of_looking (traitsAt_still i)) fun t => ?_
  exact .ite (change_recording i _) (.bind (.throw rfl) fun _ => change_recording i _)

theorem selectOptions_records (l : Locator) (choice : Choice) :
    Records (.select l choice) (selectOptions l choice) := by
  refine (record_records _).bind fun _ => .bind (recording_of_looking (located_still l)) fun i => ?_
  refine .bind (recording_of_looking (traitsAt_still i)) fun t => ?_
  refine .ite ?chosen (.bind (.throw rfl) fun _ => ?chosen)
  refine .bind .get fun p => ?_
  split
  · exact .throw rfl
  · exact .pure _
  · exact .bind (change_recording i _) fun _ => .pure _

theorem attachFiles_records (l : Locator) (paths : List String) :
    Records (.attach l paths.length) (attachFiles l paths) :=
  (record_records _).bind fun _ => .bind (recording_of_looking (located_still l)) fun i =>
    .bind (recording_of_looking (traitsAt_still i)) fun _ => change_recording i _

theorem scrollIntoView_records (l : Locator) :
    Records (.scrollIntoView l) (Browser.scrollIntoView l : Act Page Unit) :=
  (recorded_records _ l).bind fun _ => .pure _

theorem screenshot_records (l : Option Locator) (full : Bool) :
    Records (.screenshot l full) (screenshot l full) := by
  refine (record_records _).bind fun _ => ?_
  cases l with
  | none => exact .bind (.pure ()) fun _ => .pure picture
  | some l => exact .bind (recording_of_looking (located_still l)) fun _ => .pure picture

theorem awaitResponse_records (m : Network.Matcher) (timeout : Nat) :
    Records (.await m) (awaitResponse m timeout) := by
  refine (record_records _).bind fun _ => .bind .get fun p => ?_
  split
  · exact .bind (modify_recording (fun _ => rfl) fun _ => rfl) fun _ => .pure _
  · exact .bind (modify_recording (fun _ => rfl) fun _ => rfl) fun _ => .throw rfl

theorem route_records (rule : Network.Rule) :
    Records (.route rule.source) (Browser.route rule : Act Page Unit) :=
  (record_records _).bind fun _ => modify_recording (fun _ => rfl) fun _ => rfl

theorem unroute_records (source : String) : Records (.unroute source) (Browser.unroute source : Act Page Unit) :=
  (record_records _).bind fun _ => modify_recording (fun _ => rfl) fun _ => rfl

/-- One capability leaves the elements as they are and what is recorded in place. -/
theorem touch_recording {p q : Page} (touched : Browser.Touch p q) :
    (recording fun _ => True).Moves p q := by
  have kept {α : Type} {a : Act Page α} (held : (recording fun _ => True).Holds a) :
      (recording fun _ => True).Moves p (a p).2 := held.1 p
  have looked {α : Type} {a : Act Page α} (held : looking.Holds a) :
      (recording fun _ => True).Moves p (a p).2 := (recording_of_looking held).1 p
  cases touched with
  | start | close => exact kept (record_recording trivial)
  | navigate url => exact kept ((navigate_records _).holds trivial)
  | currentUrl => exact looked reads_still.currentUrl
  | pageText => exact looked reads_still.pageText
  | count l => exact looked (reads_still.count l)
  | textContent l => exact looked (reads_still.textContent l)
  | inputValue l => exact looked (reads_still.inputValue l)
  | attributeOf l name => exact looked (reads_still.attributeOf l name)
  | tagName l => exact looked (reads_still.tagName l)
  | fileCount l => exact looked (reads_still.fileCount l)
  | isVisible l => exact looked (reads_still.isVisible l)
  | click l force => exact kept ((click_records _ _).holds trivial)
  | hover l => exact kept ((hover_records _).holds trivial)
  | fill l text => exact kept ((fill_records _ _).holds trivial)
  | typeText l text delay => exact kept ((typeText_records _ _ _).holds trivial)
  | press l chord => exact kept ((press_records _ _).holds trivial)
  | setChecked l checked => exact kept ((setChecked_records _ _).holds trivial)
  | selectOptions l choice => exact kept ((selectOptions_records _ _).holds trivial)
  | attachFiles l paths => exact kept ((attachFiles_records _ _).holds trivial)
  | scrollIntoView l => exact kept ((scrollIntoView_records _).holds trivial)
  | scrollPage goal => exact kept (record_recording trivial)
  | screenshot l full => exact kept ((screenshot_records _ _).holds trivial)
  | awaitResponse m timeout => exact kept ((awaitResponse_records _ _).holds trivial)
  | route rule => exact kept ((route_records _).holds trivial)
  | unroute source => exact kept ((unroute_records _).holds trivial)

theorem reaches_recording {p q : Page} (reached : Browser.Reaches p q) :
    (recording fun _ => True).Moves p q :=
  reached.moves (D := (recording fun _ => True).toDrift) touch_recording

/-- However long a page is used, its elements stay. -/
theorem reaches_forest {p q : Page} (reached : Browser.Reaches p q) : q.forest = p.forest :=
  (reaches_recording reached).1

/-- However long a page is used, no recorded call is lost. -/
theorem reaches_history {p q : Page} (reached : Browser.Reaches p q) : p.history <+: q.history := by
  obtain ⟨calls, recorded, _⟩ := (reaches_recording reached).2
  exact ⟨calls, recorded.symm⟩

end PageSpec.Page

/-! ## Expecting -/

namespace PageSpec

theorem Sight.when_eq_met {held : Bool} {seen : String} : Sight.when held seen = .met ↔ held = true := by
  cases held <;> simp [Sight.when]

namespace Page

theorem await_ok_iff (patience : Patience) (e : Expectation) (p : Page) :
    (await patience e p).1 = .ok () ↔ (e.probe p).1 = .ok .met :=
  pollFrom_ok_iff _ _ (probe_reads reads_still e).1 _ _ p

theorem pageText_apply (p : Page) : (Browser.pageText : Act Page String) p = (.ok (p.forest.documentText 0), p) :=
  Act.bind_ok (Act.get_apply p) _

theorem pageText_ok_iff (needle : String) (p : Page) : ((Expectation.pageText needle).probe p).1 = .ok .met ↔
    Text.has (Text.collapse (p.forest.documentText 0)) (Text.collapse needle) = true := by
  simp only [Expectation.probe]
  rw [Act.bind_ok (pageText_apply p), Act.pure_apply, Except.ok.injEq, Sight.when_eq_met]

theorem visible_ok_iff {l : Locator} {p : Page} {found : List Nat} (resolved : resolve p.forest l = .ok found) :
    ((Expectation.visible l).probe p).1 = .ok .met ↔ found.head?.any p.forest.visible = true := by
  simp only [Expectation.probe]
  rw [Act.bind_ok (isVisible_ok resolved), Act.pure_apply, Except.ok.injEq, Sight.when_eq_met]

end Page
end PageSpec
