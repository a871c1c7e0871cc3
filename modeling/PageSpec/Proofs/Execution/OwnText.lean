import PageSpec.Proofs.Execution.Nesting
import PageSpec.Proofs.Page.Unmoved
/-!
Expecting a text of one element. An `expectText` object may write a target of its own, but what is read
of it is the text alone; without a target on the action the text is then looked for on the whole page.
The condition under which this comes to the same is stated exactly.
-/
namespace PageSpec

/-! ## Conditions -/

/-- Whether a text meets a condition; the exact form comes before the part. -/
def TextCondition.metBy (s : TextCondition) (text : String) : Bool :=
  match s.equals, s.contains with
  | some t, _ => Text.collapse text == Text.collapse t
  | none, some t => Text.has (Text.collapse text) (Text.collapse t)
  | none, none => false

/-- Whether a condition is met somewhere on a page: an element with just this text is visible, or the
text of the page has the part. -/
def Page.shows (f : Page.Forest) (s : TextCondition) : Bool :=
  match s.equals, s.contains with
  | some t, _ =>
    match Page.resolve f (Locator.page.text (Text.collapse t)) with
    | .ok found => found.head?.any f.visible
    | .error _ => false
  | none, some t => Text.has (Text.collapse (f.documentText 0)) (Text.collapse t)
  | none, none => false

namespace Exec
variable {c : Setting} {aim : Aim} {a : Action}

/-! ## Texts of the page -/

theorem awaits_still (timeout : Option Nat) (e : Option Expectation) :
    Drift.still.Allows (awaits c timeout e : Exec Page Unit) := by
  cases e with
  | none => exact .pure _
  | some e =>
    intro r
    exact congrArg Prod.snd (onSession_still ((await_reads Page.reads_still _ e).1.still_eq r.session))

theorem awaits_ok_iff (timeout : Option Nat) (e : Expectation) (r : Run Page) :
    (awaits c timeout (some e) r).1 = .ok () ↔ (e.probe r.session).1 = .ok .met :=
  Page.await_ok_iff _ e r.session

/-- An action without a target expects the text of the page as a whole. -/
theorem expectText_still (apart : a.explicitTarget = none) (s : TextCondition) :
    Drift.still.Allows (expectText c aim a s : Exec Page Unit) := by
  refine .when (.throw _) ?_
  rw [apart]
  exact awaits_still _ _

theorem expectText_ok_iff (apart : a.explicitTarget = none) (s : TextCondition) (r : Run Page) :
    (expectText c aim a s r).1 = .ok () ↔ Page.shows r.session.forest s = true := by
  have exact_ (t : String) (part : Option String) (timeout : Option Nat) :
      (awaits c timeout (some (.exactText t)) r).1 = .ok () ↔
        Page.shows r.session.forest ⟨some t, part, timeout⟩ = true := by
    cases resolved : Page.resolve r.session.forest (Locator.page.text (Text.collapse t)) with
    | error e => cases resolved
    | ok found =>
      rw [awaits_ok_iff, Expectation.exactText, Page.visible_ok_iff resolved, Page.shows]
      simp only [resolved]
  unfold expectText
  rw [apart]
  rcases s with ⟨_ | t, _ | part, timeout⟩
  · simp [Page.shows, Act.bind_apply, Act.throw_apply]
  · exact (awaits_ok_iff timeout _ r).trans (Page.pageText_ok_iff part r.session)
  · exact exact_ t none timeout
  · exact exact_ t (some part) timeout

/-! ## Texts of an element -/

/-- Whether a target means an element whose text meets a condition. -/
def meets (aim : Aim) (f : Page.Forest) (t : String) (s : TextCondition) : Bool :=
  (Page.named f aim.scope t aim.hints).any fun i => s.metBy (f.text i)

theorem probe_on_ok_iff {l : Locator} {p : Page} {i : Nat} {es : List Nat}
    (found : Page.resolve p.forest l = .ok (i :: es)) (s : TextCondition) {e : Expectation}
    (judged : s.on l = some e) : (e.probe p).1 = .ok .met ↔ s.metBy (p.forest.text i) = true := by
  have read := Page.textContent_cons found
  have shown (held : String → Bool) : ((do
      let t := Text.collapse ((← Browser.textContent l).getD "")
      return Sight.when (held t) (Text.quote t) : Act Page Sight) p).1 = .ok .met ↔
        held (Text.collapse (p.forest.text i)) = true := by
    rw [Act.bind_ok read, Act.pure_apply, Except.ok.injEq, Sight.when_eq_met]
    rfl
  rcases s with ⟨_ | t, _ | part, timeout⟩
  · cases judged
  · cases judged
    exact shown fun text => Text.has text (Text.collapse part)
  · cases judged
    exact shown fun text => text == Text.collapse t
  · cases judged
    exact shown fun text => text == Text.collapse t

/-- An action with a target expects the text of the element that the target means. -/
theorem expectText_on_ok_iff {t : String} (target : a.explicitTarget = some t) (s : TextCondition)
    (r : Run Page) : (expectText c aim a s r).1 = .ok () ↔ meets aim r.session.forest t s = true := by
  unfold meets
  by_cases shapeless : (s.equals.isNone && s.contains.isNone) = true
  · have unmet : s.metBy = fun _ => false := by
      rcases s with ⟨_ | t, _ | part, timeout⟩
      · rfl
      all_goals cases shapeless
    unfold expectText
    rw [if_pos shapeless, Act.bind_error (Act.throw_apply _ r), unmet]
    simp
  · have opened : (expectText c aim a s : Exec Page Unit) =
        aim.one t >>= fun l => awaits c s.timeout (s.on l) := by
      unfold expectText
      rw [if_neg shapeless, target]
    rw [opened]
    cases meant : Page.named r.session.forest aim.scope t aim.hints with
    | none =>
      obtain ⟨e, failed⟩ := Page.locate_none meant
      have lost : (aim.one t : Exec Page Locator) r = (.error e, r) := onSession_still failed
      rw [Act.bind_error lost]
      simp
    | some i =>
      obtain ⟨l, es, located, found⟩ := Page.locate_some meant
      have one : (aim.one t : Exec Page Locator) r = (.ok l, r) := onSession_still located
      obtain ⟨e, judged⟩ : ∃ e, s.on l = some e := by
        rcases s with ⟨_ | t, _ | part, timeout⟩
        · exact absurd rfl shapeless
        all_goals exact ⟨_, rfl⟩
      rw [Act.bind_ok one, judged, awaits_ok_iff, probe_on_ok_iff found s judged]
      rfl

/-! ## Performing -/

section
variable {sub : Locator → Json → Exec Page Unit} {base : Locator} {q : Run Page}

/-- Whether an action has an `exist` target that is not there. -/
def closed (aim : Aim) (a : Action) (p : Page) : Bool :=
  match a.exist with
  | none => false
  | some t => (countMatches (aim.scope.allOf (Text.trim t)) p).1.toOption == some 0

theorem gated_apply (aim : Aim) (a : Action) (r : Run Page) :
    gated aim a r = (.ok (closed aim a r.session), r) := by
  unfold gated closed
  cases a.exist with
  | none => rfl
  | some t =>
    have kept (l : Locator) : Drift.still.Allows (Browser.count l : Act Page Nat) :=
      (Page.reads_still.count l).1
    obtain ⟨n, counted⟩ := countMatches_total kept (aim.scope.allOf (Text.trim t)) r.session
    dsimp only
    rw [Act.bind_ok (onSession_still counted), counted]
    cases n <;> rfl

theorem perform_apply {pick : Pick} {scope : Locator} (picked : (c.hints a).pick = .ok pick)
    (narrowed : (buildScope (c.hints a) base q.session).1 = .ok scope) :
    perform c sub base a q = if closed ⟨scope, c.hints a⟩ a q.session then (.ok (), q)
      else (operations c sub ⟨scope, c.hints a⟩ a).forM id q := by
  have built := (buildScope_reads Page.reads_still (c.hints a) base).1.still_eq q.session
  rw [narrowed] at built
  have lifted : (lift (c.hints a).pick : Exec Page Pick) q = (.ok pick, q) := by rw [picked]; rfl
  unfold perform
  rw [Act.bind_ok lifted, Act.bind_ok (onSession_still built), Act.bind_ok (gated_apply _ a q)]
  split <;> rfl

theorem perform_unpicked {e : Failure} (picked : (c.hints a).pick = .error e) :
    perform c sub base a q = (.error e, q) := by
  have lifted : (lift (c.hints a).pick : Exec Page Pick) q = (.error e, q) := by rw [picked]; rfl
  unfold perform
  rw [Act.bind_error lifted]

theorem perform_lost {pick : Pick} {e : Failure} (picked : (c.hints a).pick = .ok pick)
    (lost : (buildScope (c.hints a) base q.session).1 = .error e) :
    perform c sub base a q = (.error e, q) := by
  have built := (buildScope_reads Page.reads_still (c.hints a) base).1.still_eq q.session
  rw [lost] at built
  have lifted : (lift (c.hints a).pick : Exec Page Pick) q = (.ok pick, q) := by rw [picked]; rfl
  unfold perform
  rw [Act.bind_ok lifted, Act.bind_error (onSession_still built)]

/-- Whether the gate of an action keeps its operations from running. -/
def gateClosed (c : Setting) (base : Locator) (a : Action) (p : Page) : Bool :=
  match (buildScope (c.hints a) base p).1 with
  | .ok scope => closed ⟨scope, c.hints a⟩ a p
  | .error _ => false

/-- The operations around that which expects a text do not ask for it. -/
theorem operations_split (o : Option TextCondition) :
    operations c sub aim { a with expectText := o } =
      (operations c sub aim a).take 10 ++ forSome o (expectText c aim a) ::
        (operations c sub aim a).drop 11 := rfl

variable {s : TextCondition}

theorem operations_ok_iff (used : ∀ l v, useRun.Allows (sub l v)) (apart : a.explicitTarget = none)
    (expected : a.expectText = some s) : ((operations c sub aim a).forM id q).1 = .ok () ↔
      ((operations c sub aim { a with expectText := none }).forM id q).1 = .ok () ∧
        Page.shows q.session.forest s = true := by
  have whole : operations c sub aim a = (operations c sub aim a).take 10 ++ expectText c aim a s ::
      (operations c sub aim a).drop 11 := by
    have parts : operations c sub aim { a with expectText := a.expectText } = _ :=
      operations_split a.expectText
    rwa [expected, forSome_some] at parts
  have without : operations c sub aim { a with expectText := none } =
      (operations c sub aim a).take 10 ++ pure () :: (operations c sub aim a).drop 11 :=
    operations_split none
  have earlier : useRun.Allows (((operations c sub aim a).take 10).forM id) :=
    .forM _ fun o member => operations_use used aim a o (List.mem_of_mem_take member)
  have same : (((operations c sub aim a).take 10).forM id q).2.session.forest = q.session.forest :=
    Page.reaches_forest (earlier q)
  have kept : Drift.still.Allows (expectText c aim a s : Exec Page Unit) := expectText_still apart s
  have left := forM_insert_ok_iff kept ((operations c sub aim a).take 10)
    ((operations c sub aim a).drop 11) q
  have right := forM_insert_ok_iff (.pure ()) ((operations c sub aim a).take 10)
    ((operations c sub aim a).drop 11) q
  rw [← whole, expectText_ok_iff apart, same] at left
  rw [← without, Act.pure_apply] at right
  rw [left, right, and_iff_left rfl]

/-- An action that expects a text and names no target gets through if the rest of it does, unless the
text is nowhere on the page and the gate is open. -/
theorem perform_ok_iff (used : ∀ l v, useRun.Allows (sub l v)) (apart : a.explicitTarget = none)
    (expected : a.expectText = some s) : (perform c sub base a q).1 = .ok () ↔
      (perform c sub base { a with expectText := none } q).1 = .ok () ∧
        (gateClosed c base a q.session = true ∨ Page.shows q.session.forest s = true) := by
  cases picked : (c.hints a).pick with
  | error e =>
    have rest : perform c sub base { a with expectText := none } q = (.error e, q) :=
      perform_unpicked picked
    rw [perform_unpicked picked, rest]
    simp
  | ok pick =>
    unfold gateClosed
    cases narrowed : (buildScope (c.hints a) base q.session).1 with
    | error e =>
      rw [perform_lost picked narrowed]
      have rest : perform c sub base { a with expectText := none } q = (.error e, q) :=
        perform_lost picked narrowed
      rw [rest]
      simp
    | ok scope =>
      have rest : perform c sub base { a with expectText := none } q =
          if closed ⟨scope, c.hints a⟩ a q.session then (.ok (), q)
          else (operations c sub ⟨scope, c.hints a⟩ { a with expectText := none }).forM id q :=
        perform_apply picked narrowed
      rw [perform_apply picked narrowed, rest]
      dsimp only
      cases shut : closed ⟨scope, c.hints a⟩ a q.session with
      | true => simp
      | false => simpa using operations_ok_iff used apart expected

end

/-! ## Own targets -/

/-- Fields of an action that expects a text and names the element within the expectation, not on the
action. No two fields have one name. -/
structure OwnTarget (fs : Fields) (written : String) : Prop where
  distinct : (Fields.keys fs).Nodup
  expected : ∃ own, Fields.get? fs "expectText" = some (.obj own) ∧
    Fields.get? own "loc" = some (.str written)
  apart : Fields.Lacks fs "loc"
  idle : Fields.Lacks fs "click"

variable {fs : Fields} {written : String} {base : Locator} {r q : Run Page}

/-- Whether the element that a target means for an action that has been read has the text that the
action expects. -/
def holdsAt (c : Setting) (base : Locator) (written : String) (a : Action) (q : Run Page) : Bool :=
  match a.expectText, (buildScope (c.hints a) base q.session).1 with
  | some s, .ok scope => meets ⟨scope, c.hints a⟩ q.session.forest (interpolate q.bag written) s
  | _, _ => false

/-- Getting through says that the element named within the expectation is there and has the text. -/
def Decisive (c : Setting) (base : Locator) (fs : Fields) (written : String) (r : Run Page) : Prop :=
  (action c base (.obj fs) r).1 = .ok () →
    ∃ a q, reading c (.obj fs) r = (.ok (some a), q) ∧ holdsAt c base written a q = true

/-- An action with a target of its own is read as one that has a text to expect and no target. -/
theorem reading_own (own : OwnTarget fs written) {o : Option Action}
    (read : reading c (.obj fs) r = (.ok o, q)) :
    ∃ a s, o = some a ∧ a.explicitTarget = none ∧ a.expectText = some s := by
  obtain ⟨inner, there, _⟩ := own.expected
  have named : "expectText" ∈ Fields.keys fs := List.mem_map.mpr ⟨_, Fields.mem_of_get? there, rfl⟩
  obtain ⟨fs', same, read⟩ := reading_ok read
  cases same
  cases o with
  | none =>
    rcases read with idle | bare
    · have operates : Action.hasOperation fs = true :=
        List.any_eq_true.mpr ⟨"expectText", by decide, Fields.has_of_get? there⟩
      rw [operates] at idle
      cases idle
    · rw [isBareRun, Bool.and_eq_true, List.all_eq_true] at bare
      exact absurd (bare.2 _ named) (by decide)
  | some a =>
    obtain ⟨filled, written, kept⟩ := fillAction_filled q.bag fs
    rw [written] at read
    have distinct : (Fields.keys filled).Nodup := kept.keys ▸ own.distinct
    have still : Fields.get? filled "expectText" = some (.obj (interpolateFields q.bag inner)) := by
      rw [kept.field _ (by decide), there]
      rfl
    obtain ⟨s, _, expected⟩ := Action.expectText_some read distinct still
    refine ⟨a, s, rfl, ?_, expected⟩
    rw [Action.explicitTarget, Action.clickSelector,
      Action.loc_none read distinct (kept.lacks (by decide) own.apart),
      Action.click_none read distinct (kept.lacks (by decide) own.idle)]
    rfl

/-- An action with a target of its own gets through if the rest of it does and the gate is closed or
the text is anywhere on the page. -/
theorem action_own_ok_iff (own : OwnTarget fs written) : (action c base (.obj fs) r).1 = .ok () ↔
    ∃ a s q, reading c (.obj fs) r = (.ok (some a), q) ∧ a.expectText = some s ∧
      (perform c (action c) base { a with expectText := none } q).1 = .ok () ∧
      (gateClosed c base a q.session = true ∨ Page.shows q.session.forest s = true) := by
  rw [action_eq]
  unfold actionWith
  rcases read : reading c (.obj fs) r with ⟨e | o, q⟩
  · rw [Act.bind_error read]
    constructor
    · intro through
      cases through
    · rintro ⟨_, _, _, same, _⟩
      cases same
  · obtain ⟨a, s, rfl, apart, expected⟩ := reading_own own read
    rw [Act.bind_ok read]
    refine (perform_ok_iff (action_uses c) apart expected).trans ⟨fun through => ?_, ?_⟩
    · exact ⟨a, s, q, rfl, expected, through⟩
    · rintro ⟨a', s', q', same, expected', through⟩
      cases same
      cases expected.symm.trans expected'
      exact through

/-- Getting through is decisive about the element only as far as the page as a whole happens to be:
whenever the rest of the action gets through, a closed gate or the text anywhere on the page has to
come with the text at the element. -/
theorem decisive_iff (own : OwnTarget fs written) (c : Setting) (base : Locator) (r : Run Page) :
    Decisive c base fs written r ↔
      ∀ a s q, reading c (.obj fs) r = (.ok (some a), q) → a.expectText = some s →
        (perform c (action c) base { a with expectText := none } q).1 = .ok () →
        (gateClosed c base a q.session = true ∨ Page.shows q.session.forest s = true) →
        holdsAt c base written a q = true := by
  unfold Decisive
  rw [action_own_ok_iff own]
  constructor
  · intro decisive a s q read expected rest through
    obtain ⟨a', q', same, held⟩ := decisive ⟨a, s, q, read, expected, rest, through⟩
    cases read.symm.trans same
    exact held
  · rintro enough ⟨a, s, q, read, expected, rest, through⟩
    exact ⟨a, q, read, enough a s q read expected rest through⟩

/-- A page of two paragraphs, `a` and `b`, on which nothing has happened yet. -/
def twoParagraphs : Run Page :=
  let paragraph (id text : String) : Page.Element :=
    .mk { Page.Traits.ofTag "p" with id := some id, text := text } ⟨"", false, 0⟩ none []
  .fresh (.ofDocument [paragraph "a" "Hello", paragraph "b" "Other"]) default .empty

/-- No hints, no functions and no document around the case. -/
def bareSetting : Setting := ⟨.default, default, none, Functions.noPrograms, none, ""⟩

/-- A greeting that is expected of the element that a target means. -/
def greetingAt (target : String) : Fields :=
  [("expectText", .obj [("loc", .str target), ("equals", .str "Hello")])]

theorem greetingAt_own (target : String) : OwnTarget (greetingAt target) target where
  distinct := by simp [greetingAt, Fields.keys]
  expected := ⟨_, rfl, rfl⟩
  apart v found := by cases found
  idle v found := by cases found

/-- Whether the greeting is at the element that the target means. -/
def greetingHolds (target : String) : Bool :=
  let (read, q) := reading bareSetting (.obj (greetingAt target)) twoParagraphs
  read.toOption.join.any fun a => holdsAt bareSetting .page target a q

theorem greetingHolds_eq {target : String} {a : Action} {q : Run Page}
    (read : reading bareSetting (.obj (greetingAt target)) twoParagraphs = (.ok (some a), q)) :
    greetingHolds target = holdsAt bareSetting .page target a q := by
  unfold greetingHolds
  rw [read]
  rfl

/-- Paragraph `a` has the text. -/
theorem decisive_at_greeting :
    OwnTarget (greetingAt "#a") "#a" ∧
      Decisive bareSetting .page (greetingAt "#a") "#a" twoParagraphs := by
  refine ⟨greetingAt_own "#a", (decisive_iff (greetingAt_own "#a") _ _ _).mpr fun a s q read _ _ _ => ?_⟩
  rw [← greetingHolds_eq read]
  decide +kernel

/-- Paragraph `b` has another text; the greeting is found at `a`, and `b` is never looked at. -/
theorem not_decisive_at_other :
    OwnTarget (greetingAt "#b") "#b" ∧
      ¬ Decisive bareSetting .page (greetingAt "#b") "#b" twoParagraphs := by
  refine ⟨greetingAt_own "#b", fun decisive => ?_⟩
  have through : (action bareSetting .page (.obj (greetingAt "#b")) twoParagraphs).1 = .ok () :=
    eq_ok_of_toOption (by decide +kernel)
  obtain ⟨a, q, read, held⟩ := decisive through
  rw [← greetingHolds_eq read] at held
  exact absurd held (by decide +kernel)

end Exec
end PageSpec
