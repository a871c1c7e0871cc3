import PageSpec.Proofs.Browser.Alike
import PageSpec.Proofs.Execution.Within
/-!
Actions on sessions that answer alike. Two runs that are equal but for such sessions end in the same way and stay
equal but for them, whatever action they go through: an action knows its session by the answers alone.
-/
namespace PageSpec
variable {σ τ α : Type}

/-- Runs with related sessions that are equal in everything else. -/
inductive Run.Over (R : σ → τ → Prop) : Run σ → Run τ → Prop
  | mk {p : σ} {q : τ} (related : R p q) (bag : Bag) (memo : Memo) (source : Dynamic.Source) (files : Files) :
    Over R ⟨p, bag, memo, source, files⟩ ⟨q, bag, memo, source, files⟩

namespace Exec
variable {R : σ → τ → Prop}

/-! ## Beside the session -/

theorem onSession_agrees {a : Act σ α} {b : Act τ α} (agree : Agree R a b) :
    Agree (Run.Over R) (onSession a) (onSession b) := by
  rintro _ _ ⟨related, bag, memo, source, files⟩
  obtain ⟨same, led⟩ := agree _ _ related
  exact ⟨same, led, bag, memo, source, files⟩

theorem lift_agrees (x : Except Failure α) : Agree (Run.Over R) (lift x) (lift x) := fun _ _ related => ⟨rfl, related⟩

theorem onSource_agrees (a : Dynamic.Drawing α) : Agree (Run.Over R) (onSource a) (onSource a) := by
  rintro _ _ ⟨related, bag, memo, source, files⟩
  exact ⟨rfl, related, bag, memo, _, files⟩

theorem store_agrees (key : String) (v : Json) : Agree (Run.Over R) (store key v) (store key v) := by
  refine .modify ?_
  rintro _ _ ⟨related, bag, memo, source, files⟩
  exact ⟨related, _, memo, source, files⟩

theorem remember_agrees (f : Memo → Memo) :
    Agree (Run.Over R) (modify fun r => { r with memo := f r.memo }) (modify fun r => { r with memo := f r.memo }) := by
  refine .modify ?_
  rintro _ _ ⟨related, bag, memo, source, files⟩
  exact ⟨related, bag, _, source, files⟩

theorem leave_agrees (files : Files) :
    Agree (Run.Over R) (modify fun r => { r with files := files }) (modify fun r => { r with files := files }) := by
  refine .modify ?_
  rintro _ _ ⟨related, bag, memo, source, _⟩
  exact ⟨related, bag, memo, source, files⟩

theorem keepingMemo_agrees {a : Exec σ α} {b : Exec τ α} (agree : Agree (Run.Over R) a b) :
    Agree (Run.Over R) (keepingMemo a) (keepingMemo b) := by
  intro r q related
  obtain ⟨z, r', q', done, done', led⟩ := agree.ends related
  obtain ⟨_, bag, memo, source, files⟩ := related
  unfold keepingMemo
  rw [done, done']
  obtain ⟨led, bag', memo', source', files'⟩ := led
  exact ⟨rfl, led, bag', memo, source', files'⟩

theorem forSome_agrees {f : α → Exec σ Unit} {g : α → Exec τ Unit} (each : ∀ x, Agree (Run.Over R) (f x) (g x))
    (o : Option α) : Agree (Run.Over R) (forSome o f) (forSome o g) := by
  cases o with
  | none => exact .pure ()
  | some x => exact each x

theorem runFunction_agrees (c : Setting) (run : Json) (alias_ : Option Json) :
    Agree (Run.Over R) (runFunction c run alias_) (runFunction c run alias_) := by
  unfold runFunction
  cases c.functions with
  | none => exact .throw _
  | some b =>
    cases run.str?.bind nonBlank? with
    | none => exact .throw _
    | some name =>
      refine .when (.throw _) (.get ?_)
      rintro _ _ ⟨_, bag, memo, source, files⟩
      refine (leave_agrees _).bind fun _ => (lift_agrees _).bind fun v => (store_agrees _ v).bind fun _ => ?_
      exact forSome_agrees (fun key => store_agrees key v) _

theorem save_agrees (path : String) (bytes : List UInt8) : Agree (Run.Over R) (save path bytes) (save path bytes) := by
  refine .bind (forSome_agrees (fun dir => .get ?_) _) fun _ => .get ?_
  all_goals
    rintro _ _ ⟨_, bag, memo, source, files⟩
    dsimp only
    split
    · exact leave_agrees _
    · exact .throw _

theorem target_agrees (candidates : List (Option String)) (need : TargetNeed) :
    Agree (Run.Over R) (target candidates need) (target candidates need) := by
  unfold target
  cases candidates.findSome? id with
  | some t => exact .pure t
  | none => exact .throw _

theorem typed_agrees (text : String) : Agree (Run.Over R) (typed text) (typed text) :=
  (store_agrees _ _).bind fun _ => remember_agrees fun m => { m with typed := some text }

/-! ## Operations -/

variable [Browser σ] [Browser τ]

section
variable (alike : Browser.Alike R)
include alike

theorem one_agrees (aim : Aim) (t : String) : Agree (Run.Over R) (aim.one t) (aim.one t) :=
  onSession_agrees (alike.locate aim.scope t aim.hints)

theorem getText_agrees (aim : Aim) (raw : String) : Agree (Run.Over R) (getText aim raw) (getText aim raw) := by
  refine (one_agrees alike aim _).bind fun l => (onSession_agrees (alike.textContent l)).bind fun text => ?_
  exact (store_agrees _ _).bind fun _ => remember_agrees fun m => { m with got := text }

theorem type_agrees (c : Setting) (aim : Aim) (a : Action) : Agree (Run.Over R) (type c aim a) (type c aim a) := by
  unfold type
  split
  · refine (onSource_agrees _).bind fun text => (target_agrees _ _).bind fun t => (one_agrees alike aim t).bind fun l => ?_
    refine (onSession_agrees (alike.fill l _)).bind fun _ => (onSession_agrees (alike.typeText l text _)).bind fun _ => ?_
    exact typed_agrees text
  · refine (onSource_agrees _).bind fun text => (target_agrees _ _).bind fun t => (one_agrees alike aim t).bind fun l => ?_
    exact (onSession_agrees (alike.fill l text)).bind fun _ => typed_agrees text
  · exact .pure _

theorem clickTarget_agrees (aim : Aim) (raw : String) :
    Agree (Run.Over R) (clickTarget aim raw) (clickTarget aim raw) := by
  unfold clickTarget
  cases typedPrefix? raw with
  | none => exact one_agrees alike aim raw
  | some before =>
    refine .get ?_
    rintro _ _ ⟨_, bag, memo, source, files⟩
    dsimp only
    split
    · exact .throw _
    · refine .ite (one_agrees alike aim _) ((lift_agrees _).bind fun pick => ?_)
      exact (onSession_agrees (alike.ensureFound _ _ _ _)).bind fun _ => .pure _

theorem click_agrees (aim : Aim) (raw : String) : Agree (Run.Over R) (click aim raw) (click aim raw) :=
  (clickTarget_agrees alike aim _).bind fun l =>
    onSession_agrees ((alike.click l false).tryCatch fun _ => alike.click l true)

theorem hover_agrees (aim : Aim) (raw : String) : Agree (Run.Over R) (hover aim raw) (hover aim raw) :=
  (one_agrees alike aim _).bind fun l => onSession_agrees (alike.hover l)

theorem press_agrees (aim : Aim) (a : Action) (chord : String) :
    Agree (Run.Over R) (press aim a chord) (press aim a chord) := by
  unfold press
  cases a.explicitTarget with
  | some t => exact (one_agrees alike aim t).bind fun l => onSession_agrees (alike.press (some l) chord)
  | none => exact onSession_agrees (alike.press none chord)

theorem setChecked_agrees (c : Setting) (aim : Aim) (a : Action) (spec : CheckTarget) (checked : Bool) :
    Agree (Run.Over R) (setChecked c aim a spec checked) (setChecked c aim a spec checked) :=
  (target_agrees _ _).bind fun t => (one_agrees alike aim t).bind fun l => onSession_agrees (alike.setChecked l checked)

theorem select_agrees (aim : Aim) (a : Action) (spec : SelectSpec) :
    Agree (Run.Over R) (select aim a spec) (select aim a spec) :=
  (target_agrees _ _).bind fun t => (lift_agrees _).bind fun choice => (one_agrees alike aim t).bind fun l =>
    (onSession_agrees (alike.selectOptions l choice)).bind fun _ => .pure _

theorem upload_agrees (c : Setting) (aim : Aim) (a : Action) (spec : UploadSpec) :
    Agree (Run.Over R) (upload c aim a spec) (upload c aim a spec) := by
  refine (target_agrees _ _).bind fun t => (one_agrees alike aim t).bind fun l => ?_
  refine (onSession_agrees (alike.tagName l)).bind fun tag => (onSession_agrees (alike.attributeOf l _)).bind fun kind => ?_
  refine .when (.throw _) (.get ?_)
  rintro _ _ ⟨_, bag, memo, source, files⟩
  refine (forSome_agrees (fun p => .throw _) _).bind fun _ => ?_
  refine (onSession_agrees (alike.attachFiles l _)).bind fun _ => (onSession_agrees (alike.fileCount l)).bind fun n => ?_
  exact .ite (.throw _) (.pure _)

theorem scrollTo_agrees (aim : Aim) (spec : ScrollSpec) :
    Agree (Run.Over R) (scrollTo aim spec) (scrollTo aim spec) := by
  unfold scrollTo
  cases spec with
  | named word =>
    dsimp only
    split
    · exact onSession_agrees (alike.scrollPage _)
    · exact onSession_agrees (alike.scrollPage _)
    · exact .throw _
  | object x y behavior goal =>
    refine .ite ?_ ?_
    · have scrolls (b : ScrollBehavior) := onSession_agrees (alike.scrollPage (.point x y b))
      cases behavior with
      | none => exact (Agree.pure _).bind scrolls
      | some w => exact (lift_agrees _).bind scrolls
    · cases goal with
      | none => exact .throw _
      | some t => exact (one_agrees alike aim _).bind fun l => onSession_agrees (alike.scrollIntoView l)

theorem screenshot_agrees (aim : Aim) (a : Action) (spec : ScreenshotSpec) :
    Agree (Run.Over R) (screenshot aim a spec) (screenshot aim a spec) := by
  unfold screenshot
  cases spec.loc.or a.explicitTarget with
  | none =>
    refine (onSession_agrees (alike.screenshot none _)).bind fun bytes => ?_
    exact forSome_agrees (fun path => save_agrees path bytes) _
  | some t =>
    refine (one_agrees alike aim t).bind fun l => (onSession_agrees (alike.screenshot (some l) false)).bind fun bytes => ?_
    exact forSome_agrees (fun path => save_agrees path bytes) _

theorem awaits_agrees (c : Setting) (timeout : Option Nat) (e : Option Expectation) :
    Agree (Run.Over R) (awaits c timeout e) (awaits c timeout e) :=
  forSome_agrees (fun e => onSession_agrees (alike.await _ e)) e

theorem expectText_agrees (c : Setting) (aim : Aim) (a : Action) (s : TextCondition) :
    Agree (Run.Over R) (expectText c aim a s) (expectText c aim a s) := by
  refine .when (.throw _) ?_
  cases a.explicitTarget with
  | some t => exact (one_agrees alike aim t).bind fun _ => awaits_agrees alike c _ _
  | none => exact awaits_agrees alike c _ _

theorem expectVisible_agrees (c : Setting) (aim : Aim) (a : Action) (s : VisibleCondition) :
    Agree (Run.Over R) (expectVisible c aim a s) (expectVisible c aim a s) :=
  (target_agrees _ _).bind fun t => (one_agrees alike aim t).bind fun _ => awaits_agrees alike c _ _

theorem expectValue_agrees (c : Setting) (aim : Aim) (s : ValueCondition) :
    Agree (Run.Over R) (expectValue c aim s) (expectValue c aim s) := by
  refine (target_agrees _ _).bind fun t => .when (.throw _) ?_
  exact (one_agrees alike aim t).bind fun _ => awaits_agrees alike c _ _

theorem expectUrl_agrees (c : Setting) (s : TextCondition) :
    Agree (Run.Over R) (expectUrl c s) (expectUrl c s) := .when (.throw _) (awaits_agrees alike c _ _)

theorem route_agrees (s : RouteSpec) : Agree (Run.Over R) (route s) (route s) := by
  refine (Agree.forM (fun source => onSession_agrees (alike.unroute source)) _).bind fun _ => ?_
  refine (Agree.forM (fun source => onSession_agrees (alike.route _)) _).bind fun _ => ?_
  exact (forSome_agrees (fun url => onSession_agrees (alike.route _)) _).bind fun _ => .ite (.throw _) (.pure _)

theorem waitRequest_agrees (c : Setting) (w : RequestWait) :
    Agree (Run.Over R) (waitRequest c w) (waitRequest c w) :=
  (lift_agrees _).bind fun m => (onSession_agrees (alike.awaitResponse m _)).bind fun _ => .pure _

theorem waitResponse_agrees (c : Setting) (w : ResponseWait) :
    Agree (Run.Over R) (waitResponse c w) (waitResponse c w) :=
  (lift_agrees _).bind fun m => (onSession_agrees (alike.awaitResponse m _)).bind fun _ =>
    forSome_agrees (fun _ => .ite (.throw _) (.pure _)) _

/-! ## Actions -/

theorem gated_agrees (aim : Aim) (a : Action) : Agree (Run.Over R) (gated aim a) (gated aim a) := by
  unfold gated
  cases a.exist with
  | none => exact .pure _
  | some t => exact (onSession_agrees (alike.countMatches _)).bind fun _ => .pure _

section
variable {sub : Locator → Json → Exec σ Unit} {sub' : Locator → Json → Exec τ Unit}
  (inner : ∀ l x, Agree (Run.Over R) (sub l x) (sub' l x))
include inner

theorem forEach_agrees (aim : Aim) (s : ForEachSpec) : Agree (Run.Over R) (forEach sub aim s) (forEach sub' aim s) := by
  refine (target_agrees _ _).bind fun items => (onSession_agrees (alike.locateAll _ _ _ _)).bind fun all => ?_
  refine (onSession_agrees (alike.count all)).bind fun n => .forM (fun i => ?_) _
  refine (onSession_agrees ((alike.scrollIntoView _).tryCatch fun _ => .pure ())).bind fun _ => ?_
  exact keepingMemo_agrees (.forM (fun x => inner _ x) s.actions)

/-- The operations of an action agree one by one. -/
theorem operations_agree (c : Setting) (aim : Aim) (a : Action) :
    List.Forall₂ (Agree (Run.Over R)) (operations c sub aim a) (operations c sub' aim a) := by
  refine .cons (forSome_agrees (forEach_agrees alike inner aim) _) ?_
  refine .cons (forSome_agrees (getText_agrees alike aim) _) ?_
  refine .cons (type_agrees alike c aim a) ?_
  refine .cons (forSome_agrees (click_agrees alike aim) _) ?_
  refine .cons (forSome_agrees (hover_agrees alike aim) _) ?_
  refine .cons (forSome_agrees (press_agrees alike aim a) _) ?_
  refine .cons (forSome_agrees (setChecked_agrees alike c aim a · true) _) ?_
  refine .cons (forSome_agrees (setChecked_agrees alike c aim a · false) _) ?_
  refine .cons (forSome_agrees (select_agrees alike aim a) _) ?_
  refine .cons (forSome_agrees (upload_agrees alike c aim a) _) ?_
  refine .cons (forSome_agrees (expectText_agrees alike c aim a) _) ?_
  refine .cons (forSome_agrees (expectVisible_agrees alike c aim a) _) ?_
  refine .cons (forSome_agrees (expectValue_agrees alike c aim) _) ?_
  refine .cons (forSome_agrees (expectUrl_agrees alike c) _) ?_
  refine .cons (forSome_agrees (waitRequest_agrees alike c) _) ?_
  refine .cons (forSome_agrees (waitResponse_agrees alike c) _) ?_
  refine .cons (forSome_agrees (scrollTo_agrees alike aim) _) ?_
  exact .cons (forSome_agrees (screenshot_agrees alike aim a) _) .nil

theorem perform_agrees (c : Setting) (base : Locator) (a : Action) :
    Agree (Run.Over R) (perform c sub base a) (perform c sub' base a) := by
  refine (lift_agrees _).bind fun _ => (onSession_agrees (alike.buildScope _ _)).bind fun scope => ?_
  refine (gated_agrees alike _ a).bind fun closed => .ite (.pure _) ?_
  exact .sequence (operations_agree alike inner c _ a)

end

theorem routeStep_agrees (fs : Fields) : Agree (Run.Over R) (routeStep fs) (routeStep fs) := by
  refine forSome_agrees (fun written => .get ?_) _
  rintro _ _ ⟨_, bag, memo, source, files⟩
  dsimp only
  split
  · exact route_agrees alike _
  · exact .throw _

theorem reading_agrees (c : Setting) (raw : Json) : Agree (Run.Over R) (reading c raw) (reading c raw) := by
  unfold reading
  cases raw with
  | obj fs =>
    refine .ite (.pure _) ((routeStep_agrees alike fs).bind fun _ => ?_)
    refine (forSome_agrees (fun run => runFunction_agrees c run _) _).bind fun _ => .ite (.pure _) (.get ?_)
    rintro _ _ ⟨_, bag, memo, source, files⟩
    dsimp only
    split
    · exact .pure _
    · exact .throw _
  | null | bool | int | float | str | arr => exact .throw _

theorem actionUpTo_agrees (c : Setting) : ∀ (n : Nat) (base : Locator) (raw : Json),
    Agree (Run.Over R) (actionUpTo c n base raw) (actionUpTo c n base raw)
  | 0, _, _ => .pure ()
  | n + 1, base, raw => by
    refine (reading_agrees alike c raw).bind fun o => ?_
    cases o with
    | none => exact .pure ()
    | some a => exact perform_agrees alike (actionUpTo_agrees c n) c base a

/-- From runs that are equal but for sessions that answer alike, an action ends in the same way and leads to such
runs. -/
theorem action_agrees (c : Setting) (base : Locator) (raw : Json) :
    Agree (Run.Over R) (action c base raw) (action c base raw) := actionUpTo_agrees alike c _ base raw

end
end Exec
end PageSpec
