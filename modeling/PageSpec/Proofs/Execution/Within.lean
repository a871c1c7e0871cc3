import PageSpec.Execution.Action
import PageSpec.Proofs.Browser.Touch
/-!
Operations within bounds. Every operation looks at the page, works out what it was given and uses a few
capabilities of its own: it is within every bound that has room for the former and that the latter are
within. An action is within a bound if its reading is, its operations are, and the actions of its loop.
-/
namespace PageSpec.Exec
variable {σ α : Type}

theorem onSession_apply (a : Act σ α) (r : Run σ) :
    onSession a r = ((a r.session).1, { r with session := (a r.session).2 }) := rfl

/-- What leaves the session alone leaves the run alone. -/
theorem onSession_still {a : Act σ α} {r : Run σ} {x : Except Failure α}
    (looked : a r.session = (x, r.session)) : onSession a r = (x, r) := by
  rw [onSession_apply, looked]

theorem onSession_ok {a : Act σ α} {r : Run σ} {v : α} {p : σ} (done : a r.session = (.ok v, p)) :
    onSession a r = (.ok v, { r with session := p }) := by
  rw [onSession_apply, done]

theorem onSession_bind {β : Type} (a : Act σ α) (f : α → Act σ β) :
    onSession (a >>= f) = onSession a >>= fun v => onSession (f v) := by
  funext r
  rw [Act.bind_apply, onSession_apply, onSession_apply, Act.bind_apply]
  rcases a r.session with ⟨e | v, p⟩
  · rfl
  · rfl

theorem onSession_tryCatch (a : Act σ α) (h : Failure → Act σ α) :
    onSession (tryCatch a h) = tryCatch (onSession a) fun e => onSession (h e) := by
  funext r
  rw [Act.tryCatch_apply, onSession_apply, onSession_apply, Act.tryCatch_apply]
  rcases a r.session with ⟨e | v, p⟩
  · rfl
  · rfl

theorem forSome_none (f : α → Exec σ Unit) : forSome none f = pure () := rfl
theorem forSome_some (x : α) (f : α → Exec σ Unit) : forSome (some x) f = f x := rfl

theorem forSome_holds {B : Bound (Run σ)} {o : Option α} {f : α → Exec σ Unit}
    (each : ∀ x, o = some x → B.Holds (f x)) : B.Holds (forSome o f) := by
  cases o with
  | none => exact .pure ()
  | some x => exact each x rfl

variable [Browser σ]

/-- A bound on runs has room for what operations have in common: looking at the session within a bound
of its own, drawing words, remembering texts, leaving files, and failing over anything but the form of
an action. -/
structure Roomy (L : Bound σ) (B : Bound (Run σ)) : Prop where
  reads : Browser.Reads L
  session : ∀ r p, L.Moves r.session p → B.Moves r { r with session := p }
  rest : ∀ r memo source files, B.Moves r { r with memo := memo, source := source, files := files }
  may : ∀ {e}, L.May e → B.May e

namespace Roomy
variable {L : Bound σ} {B : Bound (Run σ)} (room : Roomy L B)
include room

theorem fails {e : Failure} (other : e.isMalformed = false) : B.May e := room.may (room.reads.fails other)

theorem looking {a : Act σ α} (inside : L.Holds a) : B.Holds (onSession a) :=
  ⟨fun r => room.session r _ (inside.1 r.session),
    fun r e failed => room.may (inside.2 r.session e failed)⟩

theorem lifting {x : Except Failure α} (formed : Formed x) : B.Holds (lift x) :=
  ⟨fun r => B.refl r, fun _ e failed => room.fails (formed e failed)⟩

theorem drawing {a : Dynamic.Drawing α} (formed : Bound.formed.Holds a) : B.Holds (onSource a) :=
  ⟨fun r => room.rest r r.memo (a r.source).2 r.files,
    fun r e failed => room.fails (formed.2 r.source e failed)⟩

theorem remembering (f : Memo → Memo) : B.Holds (modify fun r => { r with memo := f r.memo }) :=
  .modify fun r => room.rest r (f r.memo) r.source r.files

theorem leaving (files : Files) : B.Holds (modify fun r => { r with files := files }) :=
  .modify fun r => room.rest r r.memo r.source files

theorem keeping {a : Exec σ α} (inside : B.Holds a) : B.Holds (keepingMemo a) :=
  ⟨fun r => B.trans (inside.1 r) (room.rest _ r.memo _ _), fun r e failed => inside.2 r e failed⟩

theorem target (candidates : List (Option String)) (need : TargetNeed) :
    B.Holds (target candidates need) := by
  unfold Exec.target
  split
  · exact .pure _
  · exact .throw (room.fails rfl)

theorem one (aim : Aim) (t : String) : B.Holds (aim.one t) :=
  room.looking (locate_reads room.reads aim.scope t aim.hints)

/-! ## Reading and typing -/

theorem getText (stores : ∀ v, B.Holds (store gotKey v)) (aim : Aim) (raw : String) :
    B.Holds (getText aim raw) :=
  .bind (room.one aim _) fun l => .bind (room.looking (room.reads.textContent l)) fun text =>
    .bind (stores _) fun _ => room.remembering fun m => { m with got := text }

theorem typed (stores : ∀ v, B.Holds (store typedKey v)) (text : String) : B.Holds (typed text) :=
  .bind (stores _) fun _ => room.remembering fun m => { m with typed := some text }

theorem type (fills : ∀ l text, B.Holds (onSession (Browser.fill l text)))
    (types : ∀ l text delay, B.Holds (onSession (Browser.typeText l text delay)))
    (stores : ∀ v, B.Holds (store typedKey v)) (c : Setting) (aim : Aim) (a : Action) :
    B.Holds (type c aim a) := by
  have made (raw : String) : B.Holds (onSource (Dynamic.resolve c.options raw)) :=
    room.drawing (Dynamic.resolve_formed c.options raw)
  unfold Exec.type
  split
  · refine .bind (made _) fun text => .bind (room.target _ _) fun t => .bind (room.one aim t) fun l => ?_
    exact .bind (fills l _) fun _ => .bind (types l text _) fun _ => room.typed stores text
  · refine .bind (made _) fun text => .bind (room.target _ _) fun t => .bind (room.one aim t) fun l => ?_
    exact .bind (fills l text) fun _ => room.typed stores text
  · exact .pure _

/-! ## Clicking and pressing -/

theorem clickTarget (aim : Aim) (raw : String) : B.Holds (clickTarget aim raw) := by
  unfold Exec.clickTarget
  split
  · exact room.one aim raw
  · refine .bind .get fun r => ?_
    split
    · exact .throw (room.fails rfl)
    · refine .ite (room.one aim _) (.bind (room.lifting aim.hints.pick_formed) fun pick => ?_)
      exact .bind (room.looking (ensureFound_reads room.reads _ _ _ _)) fun _ => .pure _

theorem click (clicks : ∀ l force, B.Holds (onSession (Browser.click l force))) (aim : Aim)
    (raw : String) : B.Holds (click aim raw) := by
  refine .bind (room.clickTarget aim _) fun l => ?_
  rw [onSession_tryCatch]
  exact .tryCatch (clicks l false).1 fun _ => clicks l true

theorem hover (hovers : ∀ l, B.Holds (onSession (Browser.hover l))) (aim : Aim) (raw : String) :
    B.Holds (hover aim raw) := .bind (room.one aim _) fun l => hovers l

theorem press (presses : ∀ l chord, B.Holds (onSession (Browser.press l chord))) (aim : Aim) (a : Action)
    (chord : String) : B.Holds (press aim a chord) := by
  unfold Exec.press
  split
  · exact .bind (room.one aim _) fun l => presses (some l) chord
  · exact presses none chord

/-! ## Choosing -/

theorem setChecked {checked : Bool} (checks : ∀ l, B.Holds (onSession (Browser.setChecked l checked)))
    (c : Setting) (aim : Aim) (a : Action) (spec : CheckTarget) :
    B.Holds (setChecked c aim a spec checked) :=
  .bind (room.target _ _) fun t => .bind (room.one aim t) fun l => checks l

theorem select (selects : ∀ l choice, B.Holds (onSession (Browser.selectOptions l choice))) (aim : Aim)
    (a : Action) (spec : SelectSpec) : B.Holds (select aim a spec) :=
  .bind (room.target _ _) fun t => .bind (room.lifting spec.choice_formed) fun choice =>
    .bind (room.one aim t) fun l => .bind (selects l choice) fun _ => .pure _

theorem upload (attaches : ∀ l paths, B.Holds (onSession (Browser.attachFiles l paths))) (c : Setting)
    (aim : Aim) (a : Action) (spec : UploadSpec) : B.Holds (upload c aim a spec) := by
  refine .bind (room.target _ _) fun t => .bind (room.one aim t) fun l => ?_
  refine .bind (room.looking (room.reads.tagName l)) fun tag => ?_
  refine .bind (room.looking (room.reads.attributeOf l _)) fun kind => ?_
  refine .when (.throw (room.fails rfl)) (.bind .get fun r => ?_)
  refine .bind (forSome_holds fun p _ => .throw (room.fails rfl)) fun _ => ?_
  refine .bind (attaches l _) fun _ => .bind (room.looking (room.reads.fileCount l)) fun n => ?_
  exact .ite (.throw (room.fails rfl)) (.pure _)

/-! ## Scrolling and pictures -/

theorem scrollTo (scrolls : ∀ goal, B.Holds (onSession (Browser.scrollPage goal)))
    (shows : ∀ l, B.Holds (onSession (Browser.scrollIntoView l))) (aim : Aim) (spec : ScrollSpec) :
    B.Holds (scrollTo aim spec) := by
  unfold Exec.scrollTo
  split
  · split
    · exact scrolls _
    · exact scrolls _
    · exact .throw (room.fails rfl)
  · refine .ite ?_ ?_
    · dsimp only
      split
      · exact .bind (room.lifting (ScrollBehavior.parse_formed _)) fun _ => scrolls _
      · exact .bind (.pure _) fun _ => scrolls _
    · split
      · exact .bind (room.one aim _) fun l => shows l
      · exact .throw (room.fails rfl)

theorem save (path : String) (bytes : List UInt8) : B.Holds (save (σ := σ) path bytes) := by
  refine .bind (forSome_holds fun dir _ => .bind .get fun r => ?_) fun _ => .bind .get fun r => ?_
  all_goals
    dsimp only
    split
    · exact room.leaving _
    · exact .throw (room.fails rfl)

theorem screenshot (takes : ∀ l full, B.Holds (onSession (Browser.screenshot l full))) (aim : Aim)
    (a : Action) (spec : ScreenshotSpec) : B.Holds (screenshot aim a spec) := by
  have saved (bytes : List UInt8) :
      B.Holds (forSome (spec.path.bind nonBlank?) fun path => Exec.save (σ := σ) path bytes) :=
    forSome_holds fun path _ => room.save path bytes
  unfold Exec.screenshot
  dsimp only
  split
  · exact .bind (room.one aim _) fun l => .bind (takes (some l) false) saved
  · exact .bind (takes none _) saved

/-! ## Expectations and traffic -/

theorem awaits (c : Setting) (timeout : Option Nat) (e : Option Expectation) :
    B.Holds (awaits (σ := σ) c timeout e) :=
  forSome_holds fun e _ => room.looking (await_reads room.reads _ e)

theorem expectText (c : Setting) (aim : Aim) (a : Action) (s : TextCondition) :
    B.Holds (expectText c aim a s) := by
  refine .when (.throw (room.fails rfl)) ?_
  split
  · exact .bind (room.one aim _) fun l => room.awaits c _ _
  · exact room.awaits c _ _

theorem expectVisible (c : Setting) (aim : Aim) (a : Action) (s : VisibleCondition) :
    B.Holds (expectVisible c aim a s) := by
  unfold Exec.expectVisible
  dsimp only
  exact .bind (room.target _ _) fun t => .bind (room.one aim t) fun l => room.awaits c _ _

theorem expectValue (c : Setting) (aim : Aim) (s : ValueCondition) : B.Holds (expectValue c aim s) := by
  refine .bind (room.target _ _) fun t => ?_
  exact .when (.throw (room.fails rfl)) (.bind (room.one aim t) fun l => room.awaits c _ _)

theorem expectUrl (c : Setting) (s : TextCondition) : B.Holds (expectUrl (σ := σ) c s) :=
  .when (.throw (room.fails rfl)) (room.awaits c _ _)

theorem waitRequest (c : Setting) (w : RequestWait)
    (waits : ∀ m timeout, w.matcher = .ok m → B.Holds (onSession (Browser.awaitResponse m timeout))) :
    B.Holds (waitRequest (σ := σ) c w) := by
  refine .bind_of (room.lifting w.matcher_formed) fun _ m _ made => ?_
  exact .bind (waits m _ (congrArg Prod.fst made)) fun _ => .pure _

theorem waitResponse (c : Setting) (w : ResponseWait)
    (waits : ∀ m timeout, w.matcher = .ok m → B.Holds (onSession (Browser.awaitResponse m timeout))) :
    B.Holds (waitResponse (σ := σ) c w) := by
  refine .bind_of (room.lifting w.matcher_formed) fun _ m _ made => ?_
  refine .bind (waits m _ (congrArg Prod.fst made)) fun _ => forSome_holds fun _ _ => ?_
  exact .ite (.throw (room.fails rfl)) (.pure _)

/-! ## Loops and gates -/

theorem forEach {sub : Locator → Json → Exec σ Unit} {s : ForEachSpec}
    (shows : ∀ l, B.Holds (onSession (Browser.scrollIntoView l)))
    (inner : ∀ x ∈ s.actions, ∀ l, B.Holds (sub l x)) (aim : Aim) : B.Holds (forEach sub aim s) := by
  refine .bind (room.target _ _) fun items => ?_
  refine .bind (room.looking (locateAll_reads room.reads _ _ _ _)) fun all => ?_
  refine .bind (room.looking (room.reads.count all)) fun n => .forM _ fun i _ => ?_
  refine .bind ?_ fun _ => room.keeping (.forM _ fun x member => inner x member _)
  rw [onSession_tryCatch]
  exact .tryCatch (shows _).1 fun _ => .pure ()

theorem gated (aim : Aim) (a : Action) : B.Holds (gated aim a) := by
  unfold Exec.gated
  split
  · exact .pure _
  · exact .bind (room.looking (countMatches_reads room.reads _)) fun _ => .pure _

/-- An action that has been read is within a bound if its operations are, wherever it aims. -/
theorem perform {c : Setting} {sub : Locator → Json → Exec σ Unit} {a : Action}
    (operate : ∀ aim, ∀ o ∈ operations c sub aim a, B.Holds o) (base : Locator) :
    B.Holds (perform c sub base a) := by
  refine .bind (room.lifting (HintView.pick_formed _)) fun _ => ?_
  refine .bind (room.looking (buildScope_reads room.reads _ _)) fun scope => ?_
  exact .bind (room.gated _ a) fun closed => .ite (.pure _) (.forM _ fun o member => operate _ o member)

end Roomy

/-! ## Actions -/

/-- A bound that all operations are within: what they ask of a session, and what they store. -/
structure Acts (B : Bound (Run σ)) : Prop where
  click : ∀ l force, B.Holds (onSession (Browser.click l force))
  hover : ∀ l, B.Holds (onSession (Browser.hover l))
  fill : ∀ l text, B.Holds (onSession (Browser.fill l text))
  typeText : ∀ l text delay, B.Holds (onSession (Browser.typeText l text delay))
  press : ∀ l chord, B.Holds (onSession (Browser.press l chord))
  setChecked : ∀ l checked, B.Holds (onSession (Browser.setChecked l checked))
  selectOptions : ∀ l choice, B.Holds (onSession (Browser.selectOptions l choice))
  attachFiles : ∀ l paths, B.Holds (onSession (Browser.attachFiles l paths))
  scrollIntoView : ∀ l, B.Holds (onSession (Browser.scrollIntoView l))
  scrollPage : ∀ goal, B.Holds (onSession (Browser.scrollPage goal))
  screenshot : ∀ l full, B.Holds (onSession (Browser.screenshot l full))
  awaitResponse : ∀ m timeout, B.Holds (onSession (Browser.awaitResponse m timeout))
  typed : ∀ v, B.Holds (store typedKey v)
  got : ∀ v, B.Holds (store gotKey v)

section
variable {L : Bound σ} {B : Bound (Run σ)} {c : Setting} {sub : Locator → Json → Exec σ Unit}
  (room : Roomy L B) (acts : Acts B)
include room acts

theorem operations_hold {a : Action}
    (inner : ∀ s, a.forEach = some s → ∀ x ∈ s.actions, ∀ l, B.Holds (sub l x)) (aim : Aim) :
    ∀ o ∈ operations c sub aim a, B.Holds o := by
  simp only [operations, List.forall_mem_cons, List.not_mem_nil, false_imp_iff, implies_true, and_true]
  exact ⟨forSome_holds fun s loop => room.forEach acts.scrollIntoView (inner s loop) aim,
    forSome_holds fun raw _ => room.getText acts.got aim raw,
    room.type acts.fill acts.typeText acts.typed c aim a,
    forSome_holds fun raw _ => room.click acts.click aim raw,
    forSome_holds fun raw _ => room.hover acts.hover aim raw,
    forSome_holds fun chord _ => room.press acts.press aim a chord,
    forSome_holds fun spec _ => room.setChecked (acts.setChecked · true) c aim a spec,
    forSome_holds fun spec _ => room.setChecked (acts.setChecked · false) c aim a spec,
    forSome_holds fun spec _ => room.select acts.selectOptions aim a spec,
    forSome_holds fun spec _ => room.upload acts.attachFiles c aim a spec,
    forSome_holds fun s _ => room.expectText c aim a s,
    forSome_holds fun s _ => room.expectVisible c aim a s,
    forSome_holds fun s _ => room.expectValue c aim s,
    forSome_holds fun s _ => room.expectUrl c s,
    forSome_holds fun w _ => room.waitRequest c w fun m timeout _ => acts.awaitResponse m timeout,
    forSome_holds fun w _ => room.waitResponse c w fun m timeout _ => acts.awaitResponse m timeout,
    forSome_holds fun spec _ => room.scrollTo acts.scrollPage acts.scrollIntoView aim spec,
    forSome_holds fun spec _ => room.screenshot acts.screenshot aim a spec⟩

end

/-! ## Reading -/

section
variable {B : Bound (Run σ)} {c : Setting}

theorem route_holds (adds : ∀ rule, B.Holds (onSession (Browser.route rule)))
    (removes : ∀ source, B.Holds (onSession (Browser.unroute source)))
    (shapeless : B.May (.mistake .routeShape)) (s : RouteSpec) : B.Holds (route s) := by
  refine .bind (.forM _ fun source _ => removes source) fun _ => ?_
  refine .bind (.forM _ fun source _ => adds _) fun _ => ?_
  exact .bind (forSome_holds fun url _ => adds _) fun _ => .ite (.throw shapeless) (.pure _)

theorem routeStep_holds {fs : Fields} (routes : ∀ s, B.Holds (route s))
    (misread : ∀ b v m, Fields.get? fs "route" = some v →
      RouteSpec.decode (interpolateValue b v) = .error m → B.May (.mistake (.route m))) :
    B.Holds (routeStep fs) := by
  refine forSome_holds fun v written => .bind .get fun r => ?_
  split
  · exact routes _
  · rename_i m decoded
    exact .throw (misread r.bag v m written decoded)

/-- Reading an action is within a bound if its route and its call are, and the failures to read it. -/
theorem reading_holds {raw : Json} (route : ∀ fs, raw = .obj fs → B.Holds (routeStep fs))
    (call : ∀ fs run, raw = .obj fs → Fields.get? fs "run" = some run →
      B.Holds (runFunction c run (Fields.get? fs "as")))
    (shapeless : (∀ fs, raw ≠ .obj fs) → B.May (.mistake (.actionShape raw)))
    (misread : ∀ b m, Action.ofJson (fillAction b raw) = .error m → B.May (.mistake m)) :
    B.Holds (reading c raw) := by
  unfold reading
  split
  · rename_i fs
    refine .ite (.pure _) (.bind (route fs rfl) fun _ => ?_)
    refine .bind (forSome_holds fun run written => call fs run rfl written) fun _ => .ite (.pure _) ?_
    refine .bind .get fun r => ?_
    split
    · exact .pure _
    · rename_i m read
      exact .throw (misread r.bag m read)
  · rename_i other
    exact .throw (shapeless other)

end

section
variable {L : Bound σ} {B : Bound (Run σ)} {c : Setting} {sub : Locator → Json → Exec σ Unit}
  (room : Roomy L B) (acts : Acts B)
include room acts

/-- The actions of a loop have to be within the bound only for loops that can be read. -/
theorem actionWith_holds {raw : Json} (read : B.Holds (reading (σ := σ) c raw))
    (inner : ∀ (r : Run σ) a q s, reading c raw r = (.ok (some a), q) → a.forEach = some s →
      ∀ x ∈ s.actions, ∀ l, B.Holds (sub l x)) (base : Locator) :
    B.Holds (actionWith c sub base raw) := by
  refine .bind_of read fun r o q came => ?_
  cases o with
  | none => exact .pure ()
  | some a => exact room.perform (operations_hold room acts fun s => inner r a q s came) base

end
end PageSpec.Exec
