import PageSpec.Proofs.Execution.TypedText
import PageSpec.Proofs.Page.Picking
/-!
Operations that seek an element. Each works out a target, looks for the one element that it means, and
does something there which tells that the element was found: a call is recorded, or the operation ends in
another way than with a missing target. So an operation misses its target exactly where there is none.
-/
namespace PageSpec

/-- The failure says that there is no target, or that it was not found. -/
def Failure.isMissing : Failure → Bool
  | .missingTarget _ | .notFound .target _ _ => true
  | _ => false

namespace Exec

/-- The end of an operation that missed its target: apart from the source of dynamic texts nothing has changed. -/
def Misses (p : Run Page) (done : Except Failure Unit × Run Page) : Prop :=
  ∃ e source, e.isMissing = true ∧ done = (.error e, { p with source := source })

/-- The end of an operation that found its target: a call is recorded, or what it ends with is not about
a missing target. -/
def Tells (p : Run Page) (done : Except Failure Unit × Run Page) : Prop :=
  p.session.history.length < done.2.session.history.length ∨
    ∀ e, done.1 = .error e → e.isMissing = false

theorem Tells.not_misses {p : Run Page} {done : Except Failure Unit × Run Page} (tells : Tells p done) :
    ¬ Misses p done := by
  rintro ⟨e, source, missing, rfl⟩
  rcases tells with marked | other
  · exact Nat.lt_irrefl _ marked
  · cases missing.symm.trans (other e rfl)

/-! ## Recording a call -/

section
variable {α β : Type} {call : Call}

/-- From any run, the computation records a call, also when it fails. -/
def Marks (a : Exec Page α) : Prop := ∀ p, p.session.history.length < (a p).2.session.history.length

theorem marks_onSession {a : Act Page α} (records : Page.Records call a) : Marks (onSession a) := by
  intro p
  simp [onSession_apply, records.history]

theorem lasts {a : Exec Page α} (used : useRun.Allows a) (p : Run Page) :
    p.session.history.length ≤ (a p).2.session.history.length :=
  (Page.reaches_history (used p)).length_le

/-- What comes after a recorded call may use the session in any way. -/
theorem Marks.bind {a : Exec Page α} {f : α → Exec Page β} (first : Marks a)
    (rest : ∀ v, useRun.Allows (f v)) : Marks (a >>= f) := by
  intro p
  have marked := first p
  rw [Act.bind_apply]
  rcases done : a p with ⟨e | v, q⟩
  · rw [done] at marked
    exact marked
  · rw [done] at marked
    exact Nat.lt_of_lt_of_le marked (lasts (rest v) q)

theorem Marks.tryCatch {a : Exec Page α} {h : Failure → Exec Page α} (body : Marks a)
    (handler : ∀ e, useRun.Allows (h e)) : Marks (tryCatch a h) := by
  intro p
  have marked := body p
  rw [Act.tryCatch_apply]
  rcases done : a p with ⟨e | v, q⟩
  · rw [done] at marked
    exact Nat.lt_of_lt_of_le marked (lasts (handler e) q)
  · rw [done] at marked
    exact marked

end

section
variable {c : Setting} {aim : Aim} {a : Action} {p : Run Page} {t : String} {source : Dynamic.Source}
  {o : Exec Page Unit} {k : Locator → Exec Page Unit}

theorem target_found {candidates : List (Option String)} (found : candidates.findSome? id = some t)
    (need : TargetNeed) (q : Run Page) : (target candidates need : Exec Page String) q = (.ok t, q) := by
  unfold target
  rw [found]
  rfl

/-- An operation and the target that it seeks, once what comes before in it has succeeded: a dynamic text
is made up, or options are chosen. -/
inductive Seeks (c : Setting) (aim : Aim) (a : Action) (p : Run Page) : String → Exec Page Unit → Prop
  | getText (raw : String) : Seeks c aim a p (Text.trim raw) (getText aim raw)
  | typeSlow {t raw text : String} {source : Dynamic.Source} (given : a.typeSlow = some raw)
    (made : Dynamic.resolve c.options raw p.source = (.ok text, source)) (written : a.explicitTarget = some t) :
    Seeks c aim a p t (type c aim a)
  | type {t raw text : String} {source : Dynamic.Source} (quick : a.typeSlow = none) (given : a.type = some raw)
    (made : Dynamic.resolve c.options raw p.source = (.ok text, source)) (written : a.explicitTarget = some t) :
    Seeks c aim a p t (type c aim a)
  | click (raw : String) (plain : typedPrefix? (Text.trim raw) = none) :
    Seeks c aim a p (Text.trim raw) (click aim raw)
  | hover (raw : String) : Seeks c aim a p (Text.trim raw) (hover aim raw)
  | press (chord : String) {t : String} (written : a.explicitTarget = some t) :
    Seeks c aim a p t (press aim a chord)
  | setChecked (spec : CheckTarget) (checked : Bool) {t : String}
    (found : [spec.text?, a.explicitTarget, c.context.bind (·.target)].findSome? id = some t) :
    Seeks c aim a p t (setChecked c aim a spec checked)
  | select {spec : SelectSpec} {choice : Choice} {t : String}
    (found : [spec.loc, a.explicitTarget].findSome? id = some t) (chosen : spec.choice = .ok choice) :
    Seeks c aim a p t (select aim a spec)
  | upload {spec : UploadSpec} {t : String} (found : [spec.loc, a.explicitTarget].findSome? id = some t) :
    Seeks c aim a p t (upload c aim a spec)
  | expectText {s : TextCondition} {t : String} (judged : s.equals.isSome ∨ s.contains.isSome)
    (written : a.explicitTarget = some t) : Seeks c aim a p t (expectText c aim a s)
  | expectVisible (timeout : Option Nat) {t : String} (written : a.explicitTarget = some t) :
    Seeks c aim a p t (expectVisible c aim a (.options timeout))
  | scrollTo (behavior : Option String) (raw : String) :
    Seeks c aim a p (Text.trim raw) (scrollTo aim (.object none none behavior (some raw)))
  | screenshot {spec : ScreenshotSpec} {t : String} (found : spec.loc.or a.explicitTarget = some t) :
    Seeks c aim a p t (screenshot aim a spec)

/-- The operation looks for a target after drawing some words at most, and what it goes on with tells
that the target was found. -/
structure Looks (aim : Aim) (p : Run Page) (t : String) (o : Exec Page Unit) (source : Dynamic.Source)
    (k : Locator → Exec Page Unit) : Prop where
  seeks : o p = (aim.one t >>= k) { p with source := source }
  tells : ∀ l i, Page.resolve p.session.forest l = .ok [i] → Tells p (k l { p with source := source })

theorem Looks.of_marks (seeks : o p = (aim.one t >>= k) { p with source := source })
    (marks : ∀ l, Marks (k l)) : Looks aim p t o source k :=
  ⟨seeks, fun l _ _ => .inl (marks l { p with source := source })⟩

theorem awaits_tells (timeout : Option Nat) (e : Option Expectation) (p : Run Page) :
    Tells p (awaits c timeout e p) := by
  cases e with
  | none => exact .inr nofun
  | some e =>
    have held : (⟨.any, (·.isMissing = false)⟩ : Bound Page).Holds
        (await (c.settings.patience.within timeout) e) :=
      pollFrom_holds _ _ _ (fun _ _ => trivial) (fun _ => rfl) _ _
    exact .inr (held.2 p.session)

theorem onSource_apply {α : Type} (roll : Dynamic.Drawing α) (p : Run Page) :
    onSource roll p = ((roll p.source).1, { p with source := (roll p.source).2 }) := rfl

/-- Once a text is made up, its target is sought. -/
theorem drawn_target {raw text : String} (made : Dynamic.resolve c.options raw p.source = (.ok text, source))
    (written : a.explicitTarget = some t) (need : TargetNeed) (f : String → String → Exec Page Unit) :
    (onSource (Dynamic.resolve c.options raw) >>= fun text => target [a.explicitTarget] need >>= f text) p =
      f text t { p with source := source } := by
  have drawn : onSource (Dynamic.resolve c.options raw) p = (.ok text, { p with source := source }) := by
    rw [onSource_apply, made]
  have there : [a.explicitTarget].findSome? id = some t := by rw [written]; rfl
  rw [Act.bind_ok drawn, Act.bind_ok (target_found there need _)]

theorem typed_uses (text : String) : useRun.Allows (typed text : Exec Page Unit) :=
  Bound.holds_free.mp (roomy_use.typed (store_uses typedKey) text)

/-- What an upload does at the element that its target means. -/
def attaching (c : Setting) (spec : UploadSpec) (t : String) (l : Locator) : Exec Page Unit := do
  let tag ← onSession (Browser.tagName l)
  let kind ← onSession (Browser.attributeOf l "type")
  if !(Text.asciiLower tag == "input" && kind.map Text.lower == some "file") then
    throw (.uploadTarget t)
  let paths := spec.names.map (Path.join c.directory)
  let files := (← get).files
  forSome (paths.find? (!files.exists_ ·)) fun p => throw (.uploadFileMissing p)
  onSession (Browser.attachFiles l paths)
  let actual ← onSession (Browser.fileCount l)
  if actual ≠ paths.length then throw (.uploadMismatch t paths.length actual)

/-- An upload fails over the element or a file, or attaches the files. -/
theorem attaching_tells {spec : UploadSpec} {l : Locator} {i : Nat}
    (found : Page.resolve p.session.forest l = .ok [i]) : Tells p (attaching c spec t l p) := by
  have here := Page.located_cons found
  have tag : ∃ tag, onSession (Browser.tagName l) p = (.ok tag, p) :=
    ⟨_, onSession_still (Act.bind_ok here _)⟩
  have kind : ∃ kind, onSession (Browser.attributeOf l "type") p = (.ok kind, p) :=
    ⟨_, onSession_still (Act.bind_ok here _)⟩
  obtain ⟨tag, tagged⟩ := tag
  obtain ⟨kind, kinded⟩ := kind
  unfold attaching
  rw [Act.bind_ok tagged, Act.bind_ok kinded]
  split
  · rw [Act.bind_error (Act.throw_apply _ p)]
    exact .inr fun e same => Except.error.inj same ▸ rfl
  · dsimp only
    rw [Act.bind_ok (Act.get_apply p)]
    cases (spec.names.map (Path.join c.directory)).find? (!p.files.exists_ ·) with
    | some path =>
      rw [forSome_some, Act.bind_error (Act.throw_apply _ p)]
      exact .inr fun e same => Except.error.inj same ▸ rfl
    | none =>
      rw [forSome_none, Act.bind_ok (Act.pure_apply () p)]
      refine .inl ((marks_onSession (Page.attachFiles_records l _)).bind (fun _ => ?_) p)
      refine .bind (fun q => .touch (.fileCount l q.session)) fun n => ?_
      exact .ite (.throw _) (.pure _)

/-- Every operation looks for the target that it seeks, and tells that it was found. -/
theorem Seeks.looks (seeks : Seeks c aim a p t o) : ∃ source k, Looks aim p t o source k := by
  cases seeks with
  | getText raw =>
    refine ⟨p.source, _, ⟨rfl, fun l i found => ?_⟩⟩
    have read := onSession_still (Page.textContent_cons found)
    refine .inr ?_
    rw [Act.bind_ok read]
    nofun
  | @typeSlow t raw text source given made written =>
    refine ⟨source, fun l => do
      onSession (Browser.fill l "")
      onSession (Browser.typeText l text c.settings.slowDelay)
      typed text, .of_marks ?_ fun l => ?_⟩
    · unfold Exec.type
      rw [given]
      exact drawn_target made written _ _
    · refine (marks_onSession (Page.fill_records l _)).bind fun _ => ?_
      exact .bind (fun q => .touch (.typeText l text c.settings.slowDelay q.session)) fun _ => typed_uses _
  | @type t raw text source quick given made written =>
    refine ⟨source, fun l => do
      onSession (Browser.fill l text)
      typed text, .of_marks ?_ fun l => ?_⟩
    · unfold Exec.type
      rw [quick, given]
      exact drawn_target made written _ _
    · exact (marks_onSession (Page.fill_records l _)).bind fun _ => typed_uses _
  | click raw plain =>
    refine ⟨p.source, clicking, .of_marks ?_ fun l => ?_⟩
    · rw [click_eq]
      unfold Exec.clickTarget
      rw [plain]
    · unfold clicking
      rw [onSession_tryCatch]
      exact (marks_onSession (Page.click_records l _)).tryCatch fun _ q => .touch (.click l _ q.session)
  | hover raw => exact ⟨p.source, _, .of_marks rfl fun l => marks_onSession (Page.hover_records l)⟩
  | press chord written =>
    refine ⟨p.source, _, .of_marks ?_ fun l => marks_onSession (Page.press_records (some l) chord)⟩
    unfold Exec.press
    rw [written]
  | setChecked spec checked found =>
    refine ⟨p.source, _, .of_marks ?_ fun l => marks_onSession (Page.setChecked_records l checked)⟩
    exact Act.bind_ok (target_found found _ p) _
  | @select spec choice t found chosen =>
    refine ⟨p.source, fun l => do let _ ← onSession (Browser.selectOptions l choice), .of_marks ?_ fun l => ?_⟩
    · unfold Exec.select
      rw [Act.bind_ok (target_found found _ p), chosen]
      exact Act.bind_ok rfl _
    · exact (marks_onSession (Page.selectOptions_records l _)).bind fun _ => .pure _
  | upload found =>
    exact ⟨p.source, attaching c _ t, ⟨Act.bind_ok (target_found found _ p) _, fun l i => attaching_tells⟩⟩
  | @expectText s t judged written =>
    refine ⟨p.source, fun l => awaits c s.timeout (s.on l), ⟨?_, fun l _ _ => awaits_tells _ _ p⟩⟩
    have stated : ¬ (s.equals.isNone && s.contains.isNone) = true := by
      simpa [Option.isSome_iff_ne_none, imp_iff_not_or] using judged
    unfold Exec.expectText
    rw [if_neg stated, written]
  | expectVisible timeout written =>
    refine ⟨p.source, fun l => awaits c (timeout.or a.timeout) (some (.visible l)), ⟨?_, fun l _ _ => ?_⟩⟩
    · exact Act.bind_ok (target_found (by rw [written]; rfl) _ p) _
    · exact awaits_tells _ _ p
  | scrollTo behavior raw =>
    exact ⟨p.source, _, .of_marks rfl fun l => marks_onSession (Page.scrollIntoView_records l)⟩
  | @screenshot spec t found =>
    refine ⟨p.source, fun l => do
      let bytes ← onSession (Browser.screenshot (some l) false)
      forSome (spec.path.bind nonBlank?) fun path => save path bytes, .of_marks ?_ fun l => ?_⟩
    · unfold Exec.screenshot
      rw [found]
    · refine (marks_onSession (Page.screenshot_records (some l) false)).bind fun bytes => ?_
      exact Bound.holds_free.mp (forSome_holds fun path _ => roomy_use.save path bytes)

/-- An operation misses the target that it seeks exactly if no match is at the place the hints ask for. -/
theorem Seeks.misses_iff (seeks : Seeks c aim a p t o) (single : ¬ aim.hints.Mixed) :
    Misses p (o p) ↔ ∀ j, aim.hints.Asks (Page.matchesOf p.session.forest aim.scope t).length j →
      (Page.matchesOf p.session.forest aim.scope t)[j]? = none := by
  obtain ⟨source, k, looks⟩ := seeks.looks
  rw [looks.seeks]
  rcases Page.locate_single p.session single with ⟨l, j, i, located, asked, here, stands⟩ | ⟨lost, nowhere⟩
  · have one : (aim.one t : Exec Page Locator) { p with source := source } = (.ok l, { p with source := source }) :=
      onSession_still located
    rw [Act.bind_ok one]
    constructor
    · intro missed
      exact absurd missed (looks.tells l i stands).not_misses
    · intro nowhere
      cases here.symm.trans (nowhere j asked)
  · have one : (aim.one t : Exec Page Locator) { p with source := source } =
      (.error (.notFound .target t aim.hints.describe), { p with source := source }) := onSession_still lost
    rw [Act.bind_error one]
    exact iff_of_true ⟨_, source, rfl, rfl⟩ nowhere

end
end Exec
end PageSpec
