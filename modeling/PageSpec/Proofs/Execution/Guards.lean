import PageSpec.Proofs.Execution.OwnText
import PageSpec.Proofs.Execution.Preparation
import PageSpec.Proofs.Page.Picking
/-!
The two guards of an action. Hints that mix a position with `first` or `last` are refused, and an `exist`
target that is not there ends the action; both before any operation, however many the action names. All
that can have happened by then is the preparation: rules for the traffic, and the action's own call.
-/
namespace PageSpec

/-- Counting where there may be no selector comes to the number of matches. -/
theorem Page.countMatches_allOf (p : Page) (scope : Locator) (raw : String) :
    countMatches (scope.allOf raw) p = (.ok (matchesOf p.forest scope raw).length, p) := by
  unfold matchesOf
  cases found : resolve p.forest (scope.allOf raw) with
  | ok es => exact countMatches_ok found
  | error e => exact countMatches_lost found

namespace Exec
variable {c : Setting} {fs : Fields} {r q : Run Page} {base : Locator} {a : Action} {aim : Aim}

/-- What an action writes can be read once its preparation is done. -/
def Readable (c : Setting) (fs : Fields) (r : Run Page) : Prop :=
  ∀ q, preparation c fs r = (.ok (), q) → ∃ a, Action.ofJson (fillAction q.bag (.obj fs)) = .ok a

/-- No trace of an action but that of its preparation: the page, its inputs, its location and the
responses it still holds are as before, and so are the memo and the source of dynamic texts. Only changes of the rules are
recorded, and only the answer of the action's own call is stored. -/
structure OnlyPrepared (c : Setting) (fs : Fields) (r q : Run Page) : Prop where
  forest : q.session.forest = r.session.forest
  inputs : q.session.inputs = r.session.inputs
  url : q.session.url = r.session.url
  responses : q.session.responses = r.session.responses
  memo : q.memo = r.memo
  source : q.source = r.source
  history : ∃ calls, q.session.history = r.session.history ++ calls ∧
    ∀ call ∈ calls, call.isRouting = true
  bag : q.bag = r.bag ∨ ∃ run b name v, Fields.get? fs "run" = some run ∧ c.functions = some b ∧
    run.str?.bind nonBlank? = some name ∧ (b.call c.starter name r.files).1 = .ok v ∧
    q.bag = r.bag.withAnswer (aliasOf (Fields.get? fs "as")) v

theorem Rerouted.onlyPrepared (rerouted : Rerouted r q) : OnlyPrepared c fs r q := by
  obtain ⟨calls, rules, routing, rfl⟩ := rerouted
  exact ⟨rfl, rfl, rfl, rfl, rfl, rfl, ⟨calls, rfl, routing⟩, .inl rfl⟩

theorem Prepared.onlyPrepared {x : Except Failure Unit} (prepared : Prepared c fs r x q) :
    OnlyPrepared c fs r q := by
  cases prepared with
  | misrouted rerouted _ => exact rerouted.onlyPrepared
  | uncalled rerouted _ => exact rerouted.onlyPrepared
  | called rerouted written ended =>
    obtain ⟨calls, rules, routing, rfl⟩ := rerouted
    cases ended with
    | refused => exact ⟨rfl, rfl, rfl, rfl, rfl, rfl, ⟨calls, rfl, routing⟩, .inl rfl⟩
    | failed => exact ⟨rfl, rfl, rfl, rfl, rfl, rfl, ⟨calls, rfl, routing⟩, .inl rfl⟩
    | answered given named answer =>
      refine ⟨rfl, rfl, rfl, rfl, rfl, rfl, ⟨calls, rfl, routing⟩, .inr ?_⟩
      exact ⟨_, _, _, _, written, given, named, answer, rfl⟩

/-! ## The guards -/

/-- The gate of an `exist` target is closed where nothing matches it. -/
theorem closed_iff {t : String} {p : Page} (gate : a.exist = some t) :
    closed aim a p = true ↔ Page.matchesOf p.forest aim.scope (Text.trim t) = [] := by
  unfold closed
  rw [gate]
  dsimp only
  rw [Page.countMatches_allOf]
  simp [Except.toOption]

/-- Mixed hints are refused as soon as they are looked at. -/
theorem perform_mixed {sub : Locator → Json → Exec Page Unit} (mixed : (c.hints a).Mixed) :
    perform c sub base a q = (.error .invalidIndex, q) :=
  perform_unpicked (HintView.pick_mixed mixed)

/-- What the operations of an action go by: its hints ask for one place, and its scope is built. -/
structure Aims (c : Setting) (base : Locator) (a : Action) (q : Run Page) (aim : Aim) : Prop where
  hints : aim.hints = c.hints a
  single : ¬ aim.hints.Mixed
  built : (buildScope aim.hints base q.session).1 = .ok aim.scope

theorem perform_aims {sub : Locator → Json → Exec Page Unit} (aims : Aims c base a q aim) :
    perform c sub base a q =
      if closed aim a q.session then (.ok (), q) else (operations c sub aim a).forM id q := by
  obtain ⟨scope, hints⟩ := aim
  obtain ⟨rfl, single, built⟩ := aims
  obtain ⟨pick, picked, _⟩ := Page.resolve_asked single
  exact perform_apply picked built

/-- An action that aims nowhere fails at once. -/
theorem perform_aimless {sub : Locator → Json → Exec Page Unit} (aimless : ¬ ∃ aim, Aims c base a q aim) :
    ∃ e, perform c sub base a q = (.error e, q) := by
  by_cases mixed : (c.hints a).Mixed
  · exact ⟨_, perform_mixed mixed⟩
  · obtain ⟨pick, picked, _⟩ := Page.resolve_asked mixed
    cases built : (buildScope (c.hints a) base q.session).1 with
    | error e => exact ⟨e, perform_lost picked built⟩
    | ok scope => exact absurd ⟨⟨scope, c.hints a⟩, rfl, mixed, built⟩ aimless

/-- A closed gate ends an action once its scope is built. -/
theorem perform_closed {sub : Locator → Json → Exec Page Unit} {scope : Locator} {t : String}
    (single : ¬ (c.hints a).Mixed) (built : (buildScope (c.hints a) base q.session).1 = .ok scope)
    (gate : a.exist = some t) (unmatched : Page.matchesOf q.session.forest scope (Text.trim t) = []) :
    perform c sub base a q = (.ok (), q) := by
  have aims : Aims c base a q ⟨scope, c.hints a⟩ := ⟨rfl, single, built⟩
  have shut : closed ⟨scope, c.hints a⟩ a q.session = true := (closed_iff gate).mpr unmatched
  rw [perform_aims aims, if_pos shut]

/-- The guards come before every operation: a readable action either fails in its preparation or is
stopped by the first guard that does not let it through, and then its preparation is all that has
happened. -/
theorem guards_first (c : Setting) (base : Locator) (operates : Action.hasOperation fs = true)
    (more : isBareRun fs = false) (readable : Readable c fs r) : ∃ q, OnlyPrepared c fs r q ∧
      ((∃ e, preparation c fs r = (.error e, q) ∧ action c base (.obj fs) r = (.error e, q)) ∨
        ∃ a, preparation c fs r = (.ok (), q) ∧ Action.ofJson (fillAction q.bag (.obj fs)) = .ok a ∧
          ((c.hints a).Mixed → action c base (.obj fs) r = (.error .invalidIndex, q)) ∧
          ∀ scope t, ¬ (c.hints a).Mixed → (buildScope (c.hints a) base q.session).1 = .ok scope →
            a.exist = some t → Page.matchesOf q.session.forest scope (Text.trim t) = [] →
              action c base (.obj fs) r = (.ok (), q)) := by
  have prepared := preparation_prepared c fs r
  rcases done : preparation c fs r with ⟨e | _, q⟩
  · rw [done] at prepared
    exact ⟨q, prepared.onlyPrepared, .inl ⟨e, rfl, action_unprepared operates done⟩⟩
  · rw [done] at prepared
    obtain ⟨a, read⟩ := readable q done
    have performed : action c base (.obj fs) r = perform c (action c) base a q :=
      action_prepared operates more done read
    refine ⟨q, prepared.onlyPrepared, .inr ⟨a, rfl, read, fun mixed => ?_, ?_⟩⟩
    · rw [performed, perform_mixed mixed]
    · intro scope t single built gate unmatched
      rw [performed, perform_closed single built gate unmatched]

/-- A setting with one function. -/
def tokenSetting : Setting := { bareSetting with functions := some ⟨[("token", .value (.str "t"))], none⟩ }

/-- A click and some typing, after a rule and a call, with more fields. -/
def guardedClick (more : Fields) : Fields :=
  [("route", .obj [("abort", .str "*.png")]), ("run", .str "token"), ("as", .str "key"),
    ("click", .str "#a"), ("type", .str "\x7bkey\x7d"), ("loc", .str "#b")] ++ more

/-- Whether the click is read after its preparation, and passes a test there. -/
def clickPasses (more : Fields) (test : Action → Run Page → Bool) : Bool :=
  let (x, q) := preparation tokenSetting (guardedClick more) twoParagraphs
  x.toOption.isSome &&
    (Action.ofJson (fillAction q.bag (.obj (guardedClick more)))).toOption.any (test · q)

theorem clickPasses_reached {more : Fields} {test : Action → Run Page → Bool}
    (passes : clickPasses more test = true) :
    ∃ q a, preparation tokenSetting (guardedClick more) twoParagraphs = (.ok (), q) ∧
      Action.ofJson (fillAction q.bag (.obj (guardedClick more))) = .ok a ∧ test a q = true := by
  unfold clickPasses at passes
  rcases done : preparation tokenSetting (guardedClick more) twoParagraphs with ⟨e | _, q⟩
  · rw [done] at passes
    cases passes
  · rw [done] at passes
    obtain ⟨a, read, passed⟩ := (Option.any_eq_true _ _).mp (Bool.and_eq_true_iff.mp passes).2
    exact ⟨q, a, rfl, eq_ok_of_toOption read, passed⟩

theorem clickPasses_readable {more : Fields} {test : Action → Run Page → Bool}
    (passes : clickPasses more test = true) :
    Readable tokenSetting (guardedClick more) twoParagraphs := by
  obtain ⟨q, a, done, read, _⟩ := clickPasses_reached passes
  intro q' done'
  cases done.symm.trans done'
  exact ⟨a, read⟩

/-- The click is refused if it has a position and `first`, and does nothing if it asks for an element
that is not there; its call is made in both cases. -/
theorem click_guarded :
    (∃ q, OnlyPrepared tokenSetting (guardedClick [("nth", .int 1), ("first", .bool true)])
        twoParagraphs q ∧
      action tokenSetting .page (.obj (guardedClick [("nth", .int 1), ("first", .bool true)]))
        twoParagraphs = (.error .invalidIndex, q)) ∧
    ∃ q, OnlyPrepared tokenSetting (guardedClick [("exist", .str "#c")]) twoParagraphs q ∧
      action tokenSetting .page (.obj (guardedClick [("exist", .str "#c")])) twoParagraphs =
        (.ok (), q) := by
  constructor
  · have passes : clickPasses [("nth", .int 1), ("first", .bool true)] (fun a _ =>
      decide (tokenSetting.hints a).Mixed) = true := by decide +kernel
    obtain ⟨q, a, done, read, mixed⟩ := clickPasses_reached passes
    obtain ⟨q', only, stopped⟩ := guards_first tokenSetting .page rfl rfl (clickPasses_readable passes)
    refine ⟨q', only, ?_⟩
    obtain ⟨e, failed, _⟩ | ⟨a', done', read', refused, _⟩ := stopped
    · cases done.symm.trans failed
    · cases done.symm.trans done'
      cases read.symm.trans read'
      exact refused (of_decide_eq_true mixed)
  · have passes : clickPasses [("exist", .str "#c")] (fun a q =>
      decide (¬ (tokenSetting.hints a).Mixed ∧ a.exist = some "#c" ∧
        (buildScope (tokenSetting.hints a) .page q.session).1.toOption = some .page ∧
        Page.matchesOf q.session.forest .page (Text.trim "#c") = [])) = true := by decide +kernel
    obtain ⟨q, a, done, read, stops⟩ := clickPasses_reached passes
    obtain ⟨single, gate, built, unmatched⟩ := of_decide_eq_true stops
    obtain ⟨q', only, stopped⟩ := guards_first tokenSetting .page rfl rfl (clickPasses_readable passes)
    refine ⟨q', only, ?_⟩
    obtain ⟨e, failed, _⟩ | ⟨a', done', read', _, ended⟩ := stopped
    · cases done.symm.trans failed
    · cases done.symm.trans done'
      cases read.symm.trans read'
      exact ended _ _ single (eq_ok_of_toOption built) gate unmatched

end Exec
end PageSpec
