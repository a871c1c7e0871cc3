import PageSpec.Proofs.Action.AtOnce
import PageSpec.Proofs.Execution.Alike
import PageSpec.Proofs.Execution.Blank
import PageSpec.Proofs.Execution.Clicking
import PageSpec.Proofs.Page.SameButCalls
/-!
Typing slowly and typing at once. A text that is typed slowly into an emptied element comes to the text that fills
it; the calls that are recorded differ, and nothing reads them. So an action that types slowly ends as the one that
types at once does, in a run that is the same but for the record.
-/
namespace PageSpec

/-! ## Into an element -/

namespace Page
variable {p : Page} {l : Locator} {i : Nat} {es : List Nat}

/-- The page once an element holds a text. -/
def holding (p : Page) (i : Nat) (text : String) (calls : List Call) : Page :=
  { p with inputs := p.inputs.modify i fun s => { s with value := text }, history := p.history ++ calls }

/-- A way of getting a text into the element that a locator stands for, which leaves nothing but calls besides. -/
def Enters (enter : Locator → String → Act Page Unit) : Prop :=
  ∀ {p : Page} {l : Locator} {i : Nat} {es : List Nat}, resolve p.forest l = .ok (i :: es) →
    ∀ text, ∃ calls, enter l text p = (.ok (), p.holding i text calls)

theorem fill_cons (found : resolve p.forest l = .ok (i :: es)) (text : String) :
    (Browser.fill l text : Act Page Unit) p = (.ok (), p.holding i text [.fill l text]) :=
  Act.bind_ok (recorded_cons found _) _

theorem typeText_cons (found : resolve p.forest l = .ok (i :: es)) (text : String) (delay : Nat) :
    (Browser.typeText l text delay : Act Page Unit) p = (.ok (), { p with
      inputs := p.inputs.modify i fun s => { s with value := s.value ++ text }
      history := p.history ++ [.typeText l text] }) :=
  Act.bind_ok (recorded_cons found _) _

theorem fill_enters : Enters Browser.fill := fun found text => ⟨_, fill_cons found text⟩

/-- What is typed into an emptied element is all that it holds. -/
theorem typeText_enters (delay : Nat) :
    Enters fun l text => Browser.fill l "" >>= fun _ => Browser.typeText l text delay := by
  intro p l i es found text
  refine ⟨[.fill l "", .typeText l text], ?_⟩
  dsimp only
  rw [Act.bind_ok (fill_cons found ""), typeText_cons (p := p.holding i "" _) found]
  unfold holding
  dsimp only
  rw [List.modify_modify_eq, List.append_assoc]
  have whole : (fun s : Input => { s with value := s.value ++ text }) ∘ (fun s : Input => { s with value := "" }) =
      fun s : Input => { s with value := text } := by
    funext s
    simp only [Function.comp_apply, String.empty_append]
  rw [whole]
  rfl

end Page

namespace Exec
open Page (SameButCalls)
variable {c : Setting} {aim : Aim} {a : Action} {r : Run Page}

/-! ## Typing -/

/-- Typing a text in some way. -/
def typing (c : Setting) (aim : Aim) (a : Action) (x : String) (need : TargetNeed)
    (enter : Locator → String → Act Page Unit) : Exec Page Unit := do
  let text ← onSource (Dynamic.resolve c.options x)
  let l ← aim.one (← target [a.explicitTarget] need)
  onSession (enter l text)
  typed text

theorem type_slow (x : String) : (type c aim { a with typeSlow := some x } : Exec Page Unit) = typing c aim a x .typeSlow
    fun l text => Browser.fill l "" >>= fun _ => Browser.typeText l text c.settings.slowDelay := by
  unfold type typing
  simp only [onSession_bind, bind_assoc]
  rfl

theorem type_quick (x : String) : (type c aim { a with typeSlow := none, type := some x } : Exec Page Unit) =
    typing c aim a x .type Browser.fill := rfl

/-- How two ways of typing go: nothing but words is drawn in either, or the text is made up and gets into the one
element that the explicit target means. -/
inductive Types (c : Setting) (aim : Aim) (a : Action) (x : String) (r : Run Page) :
    Except Failure Unit × Run Page → Except Failure Unit × Run Page → Prop
  | lost (e e' : Failure) (source : Dynamic.Source) :
    Types c aim a x r (.error e, { r with source := source }) (.error e', { r with source := source })
  | held {text t : String} {source : Dynamic.Source} {l : Locator} {i : Nat} (calls calls' : List Call)
    (made : Dynamic.resolve c.options x r.source = (.ok text, source)) (written : a.explicitTarget = some t)
    (found : (locate aim.scope t aim.hints r.session).1 = .ok l) (stands : Page.resolve r.session.forest l = .ok [i]) :
    Types c aim a x r
      (.ok (), ⟨r.session.holding i text calls, r.bag.set typedKey (.str text), { r.memo with typed := some text },
        source, r.files⟩)
      (.ok (), ⟨r.session.holding i text calls', r.bag.set typedKey (.str text), { r.memo with typed := some text },
        source, r.files⟩)

theorem typing_types {enter enter' : Locator → String → Act Page Unit} (enters : Page.Enters enter)
    (enters' : Page.Enters enter') (x : String) (need need' : TargetNeed) :
    Types c aim a x r (typing c aim a x need enter r) (typing c aim a x need' enter' r) := by
  unfold typing
  rcases made : Dynamic.resolve c.options x r.source with ⟨e | text, source⟩
  · have drawn : onSource (Dynamic.resolve c.options x) r = (.error e, { r with source := source }) := by
      rw [onSource_apply, made]
    rw [Act.bind_error drawn, Act.bind_error drawn]
    exact .lost e e source
  · have drawn : onSource (Dynamic.resolve c.options x) r = (.ok text, { r with source := source }) := by
      rw [onSource_apply, made]
    rw [Act.bind_ok drawn, Act.bind_ok drawn]
    cases written : a.explicitTarget with
    | none => exact .lost _ _ source
    | some t =>
      have there : [some t].findSome? id = some t := rfl
      rw [Act.bind_ok (target_found there need _), Act.bind_ok (target_found there need' _)]
      rcases one_ends aim t { r with source := source } with ⟨e, lost⟩ | ⟨l, i, found, stands⟩
      · rw [Act.bind_error lost, Act.bind_error lost]
        exact .lost e e source
      · obtain ⟨calls, entered⟩ := enters stands text
        obtain ⟨calls', entered'⟩ := enters' stands text
        rw [Act.bind_ok found, Act.bind_ok found, Act.bind_ok (onSession_ok entered), Act.bind_ok (onSession_ok entered')]
        exact .held calls calls' made written (congrArg Prod.fst found) stands

/-! ## Ending alike -/

/-- Ends that succeed or fail together, in runs that are the same but for the recorded calls. -/
structure EndAlike (d d' : Except Failure Unit × Run Page) : Prop where
  ok : d.1 = .ok () ↔ d'.1 = .ok ()
  run : Run.Over SameButCalls d.2 d'.2

theorem over_refl (r : Run Page) : Run.Over SameButCalls r r := .mk (.refl _) r.bag r.memo r.source r.files

theorem EndAlike.refl (d : Except Failure Unit × Run Page) : EndAlike d d := ⟨.rfl, over_refl d.2⟩

/-- What goes on from ends that are alike ends alike if it goes on alike. -/
theorem EndAlike.bind {o o' k k' : Exec Page Unit} {q : Run Page} (first : EndAlike (o r) (o' q))
    (rest : Agree (Run.Over SameButCalls) k k') : EndAlike ((o >>= fun _ => k) r) ((o' >>= fun _ => k') q) := by
  obtain ⟨ok, run⟩ := first
  rw [Act.bind_apply, Act.bind_apply]
  rcases done : o r with ⟨e | _, r'⟩ <;> rcases done' : o' q with ⟨e' | _, q'⟩ <;> rw [done, done'] at ok run
  · exact ⟨⟨nofun, nofun⟩, run⟩
  · exact nomatch ok.mpr rfl
  · exact nomatch ok.mp rfl
  · obtain ⟨same, led⟩ := rest r' q' run
    exact ⟨by rw [same], led⟩

theorem Types.endAlike {x : String} {d d' : Except Failure Unit × Run Page} (types : Types c aim a x r d d') :
    EndAlike d d' := by
  cases types with
  | lost e e' source => exact ⟨⟨nofun, nofun⟩, over_refl _⟩
  | held calls calls' => exact ⟨.rfl, .mk ⟨_, rfl⟩ _ _ _ _⟩

theorem type_types (x : String) : Types c aim a x r (type c aim { a with typeSlow := some x } r)
    (type c aim { a with typeSlow := none, type := some x } r) := by
  rw [type_slow, type_quick]
  exact typing_types (Page.typeText_enters _) Page.fill_enters x _ _

theorem type_atOnce (untyped : a.type = none) : EndAlike (type c aim a r) (type c aim a.atOnce r) := by
  cases slow : a.typeSlow with
  | none =>
    have same : a.atOnce = a := by
      cases a
      dsimp only at untyped slow
      subst untyped slow
      rfl
    rw [same]
    exact .refl _
  | some x =>
    have here : a = { a with typeSlow := some x } := by rw [← slow]
    have quick : a.atOnce = { a with typeSlow := none, type := some x } := by rw [Action.atOnce, slow]
    rw [quick]
    nth_rewrite 1 [here]
    exact (type_types x).endAlike

/-! ## Whole actions -/

/-- The operations before and after typing are the same, and they go on alike. -/
theorem operations_atOnce (c : Setting) (aim : Aim) (a : Action) : ∃ before after,
    operations c (action c) aim a = before ++ type c aim a :: after ∧
    operations c (action c) aim a.atOnce = before ++ type c aim a.atOnce :: after ∧
    List.Forall₂ (Agree (Run.Over SameButCalls)) after after := by
  have agree := operations_agree Page.sameButCalls_alike (action_agrees Page.sameButCalls_alike c) c aim a
  exact ⟨(operations c (action c) aim a).take 2, (operations c (action c) aim a).drop 3, rfl, rfl,
    List.forall₂_drop 3 agree⟩

theorem perform_atOnce (base : Locator) (untyped : a.type = none) :
    EndAlike (perform c (action c) base a r) (perform c (action c) base a.atOnce r) := by
  have aims_iff (aim : Aim) : Aims c base a.atOnce r aim ↔ Aims c base a r aim :=
    ⟨fun aims => ⟨aims.hints, aims.single, aims.built⟩, fun aims => ⟨aims.hints, aims.single, aims.built⟩⟩
  by_cases aimed : ∃ aim, Aims c base a r aim
  · obtain ⟨aim, aims⟩ := aimed
    have gate : closed aim a.atOnce r.session = closed aim a r.session := rfl
    obtain ⟨before, after, slow, quick, agree⟩ := operations_atOnce c aim a
    rw [perform_aims aims, perform_aims ((aims_iff aim).mpr aims), gate, slow, quick]
    split
    · exact .refl _
    · rw [Act.forM_append, Act.forM_append]
      rcases done : before.forM id r with ⟨e | _, q⟩
      · rw [Act.bind_error done, Act.bind_error done]
        exact .refl _
      · rw [Act.bind_ok done, Act.bind_ok done]
        exact (type_atOnce untyped).bind (.sequence agree)
  · have aimed' : ¬ ∃ aim, Aims c base a.atOnce r aim := by simpa only [aims_iff] using aimed
    have failing : ∃ e, perform c (action c) base a r = (.error e, r) := perform_aimless aimed
    have failing' : ∃ e, perform c (action c) base a.atOnce r = (.error e, r) := perform_aimless aimed'
    obtain ⟨e, failed⟩ := failing
    obtain ⟨e', failed'⟩ := failing'
    rw [failed, failed']
    exact ⟨⟨nofun, nofun⟩, over_refl r⟩

theorem preparation_atOnce (fs : Fields) : (preparation c fs.atOnce : Exec Page Unit) = preparation c fs := by
  have unmoved {k : String} (other : k ≠ "type") (other' : k ≠ "typeSlow") : Fields.get? fs.atOnce k = Fields.get? fs k :=
    Fields.get?_atOnce other other' fs
  unfold preparation routeStep
  rw [unmoved (by decide) (by decide), unmoved (by decide) (by decide), unmoved (by decide) (by decide)]

/-- An action with an operation that is no call is more than nothing, and more than a call. -/
theorem operates_of_mem {fs : Fields} {k : String} (there : k ∈ Fields.keys fs) (operation : k ∈ Action.operationKeys)
    (other : (k == "run" || k == "as") = false) : Action.hasOperation fs = true ∧ isBareRun fs = false := by
  constructor
  · refine List.any_eq_true.mpr ⟨k, operation, ?_⟩
    by_contra absent
    exact Fields.has_eq_false_iff.mp (Bool.eq_false_iff.mpr absent) there
  · have mixed : (Fields.keys fs).all (fun k => k == "run" || k == "as") = false :=
      List.all_eq_false.mpr ⟨k, there, Bool.eq_false_iff.mp other⟩
    unfold isBareRun
    rw [mixed, Bool.and_false]

theorem action_atOnce (base : Locator) {fs : Fields} (slow : "typeSlow" ∈ Fields.keys fs)
    (absent : "type" ∉ Fields.keys fs) :
    EndAlike (action c base (.obj fs) r) (action c base (.obj fs.atOnce) r) := by
  have quick : "type" ∈ Fields.keys fs.atOnce := by
    rw [Fields.keys_atOnce]
    exact List.mem_map.mpr ⟨_, slow, Fields.nameAtOnce_slow⟩
  obtain ⟨operates, more⟩ := operates_of_mem slow (by decide) (by decide)
  obtain ⟨operates', more'⟩ := operates_of_mem quick (by decide) (by decide)
  have same : preparation c fs.atOnce r = preparation c fs r := by rw [preparation_atOnce]
  rcases done : preparation c fs r with ⟨e | _, q⟩
  · rw [action_unprepared operates done, action_unprepared operates' (same.trans done)]
    exact .refl _
  · rw [action_after operates done, action_after operates' (same.trans done), more, more']
    obtain ⟨filled, given, given'⟩ := fillAction_atOnce q.bag fs
    obtain ⟨kept, given'', names⟩ := fillAction_filled q.bag fs
    cases given.symm.trans given''
    have absent' : "type" ∉ Fields.keys filled := names.keys ▸ absent
    rw [given, given', Action.ofJson_atOnce absent']
    cases read : Action.ofJson (.obj filled) with
    | error m => exact .refl _
    | ok a => exact perform_atOnce base (Action.untyped read absent')

/-! ## Typing slowly and at once -/

/-- A text was made up and typed: the one element that the explicit target means holds it, and it is stored and
remembered as the text typed last. -/
inductive Typed (c : Setting) (aim : Aim) (a : Action) (x : String) (r q : Run Page) : Prop
  | intro {text t : String} {l : Locator} {i : Nat} {s : Page.Input}
    (made : (Dynamic.resolve c.options x r.source).1 = .ok text) (written : a.explicitTarget = some t)
    (found : (locate aim.scope t aim.hints r.session).1 = .ok l) (stands : Page.resolve r.session.forest l = .ok [i])
    (held : q.session.inputs[i]? = some s) (value : s.value = text) (typed : q.memo.typed = some text)
    (stored : q.bag.get? typedKey = some (.str text))

/-- A text was typed, or neither bag nor memo has changed. -/
def TypedOrNot (c : Setting) (aim : Aim) (a : Action) (x : String) (r : Run Page) (d : Except Failure Unit × Run Page) :
    Prop :=
  (d.1 = .ok () → Typed c aim a x r d.2) ∧ (d.1 ≠ .ok () → d.2.bag = r.bag ∧ d.2.memo = r.memo)

section
variable {x : String} {d d' : Except Failure Unit × Run Page}

theorem Types.symm (types : Types c aim a x r d d') : Types c aim a x r d' d := by
  cases types with
  | lost e e' source => exact .lost e' e source
  | held calls calls' made written found stands => exact .held calls' calls made written found stands

theorem Types.typedOrNot {document : List Page.Element} (rendered : r.session.Renders document)
    (types : Types c aim a x r d d') : TypedOrNot c aim a x r d := by
  cases types with
  | lost e e' source => exact ⟨nofun, fun _ => ⟨rfl, rfl⟩⟩
  | @held text t source l i calls calls' made written found stands =>
    refine ⟨fun _ => ?_, fun failed => absurd rfl failed⟩
    obtain ⟨n, s, _, held⟩ := rendered.matched stands List.mem_cons_self
    have filled : (r.session.holding i text calls).inputs[i]? = some { s with value := text } := by
      simp only [Page.holding, List.getElem?_modify, held, if_true, Option.map_eq_map, Option.map_some]
    have stored : (r.bag.set typedKey (.str text)).get? typedKey = some (.str text) :=
      (Fields.get?_set ..).trans (if_pos rfl)
    exact .intro (congrArg Prod.fst made) written found stands filled rfl rfl stored

end

/-- Typing slowly and typing at once come to the same but for the recorded calls, as operations and as part of any
action. As operations both type the text, or both leave bag and memo as they are. -/
theorem slowly_as_at_once {document : List Page.Element} {r : Run Page} (rendered : r.session.Renders document)
    (c : Setting) :
    (∀ (aim : Aim) (a : Action) (x : String),
      let slow := type c aim { a with typeSlow := some x } r
      let quick := type c aim { a with typeSlow := none, type := some x } r
      EndAlike slow quick ∧ TypedOrNot c aim a x r slow ∧ TypedOrNot c aim a x r quick) ∧
    ∀ (base : Locator) (fs : Fields), "typeSlow" ∈ Fields.keys fs → "type" ∉ Fields.keys fs →
      EndAlike (action c base (.obj fs) r) (action c base (.obj fs.atOnce) r) := by
  refine ⟨fun aim a x => ?_, fun base fs slow absent => action_atOnce base slow absent⟩
  have types : Types c aim a x r _ _ := type_types x
  exact ⟨types.endAlike, types.typedOrNot rendered, types.symm.typedOrNot rendered⟩

/-- A field that holds a text already. -/
def oldField : Page.Element := .mk (.ofTag "input") ⟨"old", false, 0⟩ none []

/-- The text of the field is replaced, whether the new one is typed slowly or at once. -/
theorem oldField_replaced :
    let r := Run.fresh (Page.ofDocument [oldField]) default .empty
    let a : Action := { Action.empty with loc := some "input" }
    let fs : Fields := [("loc", .str "input"), ("typeSlow", .str "new")]
    r.session.Renders [oldField] ∧ "typeSlow" ∈ Fields.keys fs ∧ "type" ∉ Fields.keys fs ∧
      Typed bareSetting wholePage a "new" r (type bareSetting wholePage { a with typeSlow := some "new" } r).2 ∧
      Typed bareSetting wholePage a "new" r (type bareSetting wholePage { a with type := some "new" } r).2 ∧
      (action bareSetting .page (.obj fs) r).1 = .ok () ∧
      EndAlike (action bareSetting .page (.obj fs) r)
        (action bareSetting .page (.obj [("loc", .str "input"), ("type", .str "new")]) r) := by
  intro r a fs
  have rendered : r.session.Renders [oldField] := Page.ofDocument_renders _
  have slow : "typeSlow" ∈ Fields.keys fs := by decide
  have absent : "type" ∉ Fields.keys fs := by decide
  obtain ⟨typing, acting⟩ := slowly_as_at_once rendered bareSetting
  obtain ⟨alike, slowly, atOnce⟩ := typing wholePage a "new"
  have done : (type bareSetting wholePage { a with typeSlow := some "new" } r).1 = .ok () :=
    eq_ok_of_toOption (by decide +kernel)
  have acted : (action bareSetting .page (.obj fs) r).1 = .ok () := eq_ok_of_toOption (by decide +kernel)
  exact ⟨rendered, slow, absent, slowly.1 done, atOnce.1 (alike.ok.mp done), acted, acting .page fs slow absent⟩

end Exec
end PageSpec
