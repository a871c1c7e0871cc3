import PageSpec.Proofs.Action.Loops
import PageSpec.Proofs.Action.Permuted
import PageSpec.Proofs.Execution.Guards
/-!
The order of operations. What an action asks of a page comes in blocks, one for each operation, and the
blocks in one fixed order, also if a step fails. It is not the order in which the fields of the action
are written: an action does the same with its fields in any order.
-/
namespace PageSpec

/-- The operations that are recorded, in the order in which they run. -/
inductive Operation where
  | route | type | click | hover | press | check | uncheck | select | upload
  | waitRequest | waitResponse | scrollTo | screenshot
  deriving DecidableEq, Repr

/-- The operations behind the gate, in order. -/
def Operation.gated : List Operation := [.type, .click, .hover, .press, .check, .uncheck, .select,
  .upload, .waitRequest, .waitResponse, .scrollTo, .screenshot]

/-- All operations in order. -/
def Operation.all : List Operation := .route :: gated

/-- The operation that a call was made for; a wait for a response gives a glob. -/
def Call.operation? : Call → Option Operation
  | .route _ | .unroute _ => some .route
  | .fill _ _ | .typeText _ _ => some .type
  | .click _ _ => some .click
  | .hover _ => some .hover
  | .press _ _ => some .press
  | .setChecked _ true => some .check
  | .setChecked _ false => some .uncheck
  | .select _ _ => some .select
  | .attach _ _ => some .upload
  | .await m =>
    match m.urls with
    | .glob _ :: _ => some .waitResponse
    | _ => some .waitRequest
  | .scrollIntoView _ | .scrollPage _ => some .scrollTo
  | .screenshot _ _ => some .screenshot
  | .started | .navigate _ | .closed => none

theorem Call.operation?_of_isRouting {call : Call} (routing : call.isRouting = true) :
    call.operation? = some .route := by
  cases call with
  | route | unroute => rfl
  | _ => cases routing

theorem RequestWait.operation {w : RequestWait} {m : Network.Matcher} (made : w.matcher = .ok m) :
    (Call.await m).operation? = some .waitRequest := by
  unfold matcher at made
  dsimp only at made
  split at made
  · cases made
  · cases made
    unfold Call.operation?
    dsimp only [Network.Matcher.urlParts]
    split
    · rename_i found
      cases parts : (OneOrMany.listOf w.urlIncludes).filterMap nonBlank? with
      | nil => rw [parts] at found; cases found
      | cons => rw [parts] at found; cases found
    · rfl

theorem ResponseWait.operation {w : ResponseWait} {m : Network.Matcher} (made : w.matcher = .ok m) :
    (Call.await m).operation? = some .waitResponse := by
  unfold matcher at made
  split at made
  · cases made
  · cases made
    rfl

/-- Calls that were made for some operations, one after another: one block for each of them, which may
be empty. -/
inductive InOrder : List Operation → List Call → Prop
  | done : InOrder [] []
  | block {o : Operation} {os : List Operation} {block rest : List Call}
    (own : ∀ call ∈ block, call.operation? = some o) (later : InOrder os rest) :
    InOrder (o :: os) (block ++ rest)

theorem InOrder.nothing : ∀ os : List Operation, InOrder os []
  | [] => .done
  | _ :: os => .block (List.forall_mem_nil _) (nothing os)

namespace Exec
variable {c : Setting} {aim : Aim} {a : Action} {base : Locator} {fs fs' : Fields} {r q : Run Page}
  {sub : Locator → Json → Exec Page Unit}

/-! ## One operation -/

/-- Whether a call is one of an operation; there are none where nothing is recorded. -/
def MadeFor (o : Option Operation) (call : Call) : Prop := o.isSome ∧ call.operation? = o

/-- Recording calls of one operation. -/
abbrev recordingFor (o : Option Operation) : Bound (Run Page) :=
  .free (Page.recording (MadeFor o)).onSession

theorem roomy_recording (o : Option Operation) : Roomy Page.looking (recordingFor o) where
  reads := Page.reads_still
  session r p same := by
    cases same
    exact (Page.recording (MadeFor o)).refl r.session
  rest r _ _ _ := (Page.recording (MadeFor o)).refl r.session
  may _ := trivial

theorem onSession_records {α : Type} {o : Option Operation} {b : Act Page α}
    (recorded : (Page.recording (MadeFor o)).Holds b) : (recordingFor o).Holds (onSession b) :=
  Bound.holds_free.mpr fun r => recorded.1 r.session

theorem store_records {o : Option Operation} (key : String) (v : Json) :
    (recordingFor o).Holds (store key v) :=
  Bound.holds_free.mpr fun r => (Page.recording (MadeFor o)).refl r.session

/-- What each of the operations behind the gate records. -/
def recorded : List (Option Operation) := [none, none, some .type, some .click, some .hover, some .press,
  some .check, some .uncheck, some .select, some .upload, none, none, none, none, some .waitRequest,
  some .waitResponse, some .scrollTo, some .screenshot]

theorem operations_record (plain : a.forEach = none) (c : Setting)
    (sub : Locator → Json → Exec Page Unit) (aim : Aim) :
    List.Forall₂ (fun o step => (recordingFor o).Holds step) recorded (operations c sub aim a) := by
  have room := roomy_recording
  unfold recorded operations
  rw [plain]
  refine .cons (.pure ()) <| .cons ?getText <| .cons ?type <| .cons ?click <| .cons ?hover <|
    .cons ?press <| .cons ?check <| .cons ?uncheck <| .cons ?select <| .cons ?upload <|
    .cons ?expectText <| .cons ?expectVisible <| .cons ?expectValue <| .cons ?expectUrl <|
    .cons ?waitRequest <| .cons ?waitResponse <| .cons ?scrollTo <| .cons ?screenshot .nil
  case getText => exact forSome_holds fun raw _ => (room none).getText (store_records gotKey) aim raw
  case type =>
    exact (room _).type (fun l text => onSession_records ((Page.fill_records _ _).holds ⟨rfl, rfl⟩))
      (fun l text delay => onSession_records ((Page.typeText_records _ _ _).holds ⟨rfl, rfl⟩))
      (store_records typedKey) c aim a
  case click =>
    exact forSome_holds fun raw _ => (room _).click
      (fun l force => onSession_records ((Page.click_records _ _).holds ⟨rfl, rfl⟩)) aim raw
  case hover =>
    exact forSome_holds fun raw _ => (room _).hover
      (fun l => onSession_records ((Page.hover_records _).holds ⟨rfl, rfl⟩)) aim raw
  case press =>
    exact forSome_holds fun chord _ => (room _).press
      (fun l chord => onSession_records ((Page.press_records _ _).holds ⟨rfl, rfl⟩)) aim a chord
  case check =>
    exact forSome_holds fun spec _ => (room _).setChecked
      (fun l => onSession_records ((Page.setChecked_records _ _).holds ⟨rfl, rfl⟩)) c aim a spec
  case uncheck =>
    exact forSome_holds fun spec _ => (room _).setChecked
      (fun l => onSession_records ((Page.setChecked_records _ _).holds ⟨rfl, rfl⟩)) c aim a spec
  case select =>
    exact forSome_holds fun spec _ => (room _).select
      (fun l choice => onSession_records ((Page.selectOptions_records _ _).holds ⟨rfl, rfl⟩)) aim a spec
  case upload =>
    exact forSome_holds fun spec _ => (room _).upload
      (fun l paths => onSession_records ((Page.attachFiles_records _ _).holds ⟨rfl, rfl⟩)) c aim a spec
  case expectText => exact forSome_holds fun s _ => (room none).expectText c aim a s
  case expectVisible => exact forSome_holds fun s _ => (room none).expectVisible c aim a s
  case expectValue => exact forSome_holds fun s _ => (room none).expectValue c aim s
  case expectUrl => exact forSome_holds fun s _ => (room none).expectUrl c s
  case waitRequest =>
    exact forSome_holds fun w _ => (room _).waitRequest c w fun m timeout made =>
      onSession_records ((Page.awaitResponse_records _ _).holds ⟨rfl, RequestWait.operation made⟩)
  case waitResponse =>
    exact forSome_holds fun w _ => (room _).waitResponse c w fun m timeout made =>
      onSession_records ((Page.awaitResponse_records _ _).holds ⟨rfl, ResponseWait.operation made⟩)
  case scrollTo =>
    exact forSome_holds fun spec _ => (room _).scrollTo
      (fun goal => onSession_records (Page.record_recording ⟨rfl, rfl⟩))
      (fun l => onSession_records ((Page.scrollIntoView_records _).holds ⟨rfl, rfl⟩)) aim spec
  case screenshot =>
    exact forSome_holds fun spec _ => (room _).screenshot
      (fun l full => onSession_records ((Page.screenshot_records _ _).holds ⟨rfl, rfl⟩)) aim a spec

/-! ## All of them -/

/-- What a run appends to the record of its page is in order. -/
def Appends (os : List Operation) (r q : Run Page) : Prop :=
  ∃ calls, q.session.history = r.session.history ++ calls ∧ InOrder os calls

theorem Appends.nothing (os : List Operation) (r : Run Page) : Appends os r r :=
  ⟨[], (List.append_nil _).symm, .nothing os⟩

/-- One more step in front: its calls are a block, unless it records nothing. -/
theorem Appends.step {o : Option Operation} {os : List (Option Operation)} {t : Run Page}
    (first : (Page.recording (MadeFor o)).Moves r.session q.session)
    (rest : Appends (os.filterMap id) q t) : Appends ((o :: os).filterMap id) r t := by
  obtain ⟨_, block, made, own⟩ := first
  obtain ⟨calls, later, ordered⟩ := rest
  refine ⟨block ++ calls, by rw [later, made, List.append_assoc], ?_⟩
  cases o with
  | none =>
    have empty : block = [] :=
      List.eq_nil_iff_forall_not_mem.mpr fun call member => nomatch (own call member).1
    rw [empty]
    exact ordered
  | some p => exact .block (fun call member => (own call member).2) ordered

/-- The steps append block after block; the blocks behind a failure are empty. -/
theorem forM_appends {os : List (Option Operation)} {steps : List (Exec Page Unit)}
    (each : List.Forall₂ (fun o step => (recordingFor o).Holds step) os steps) (r : Run Page) :
    Appends (os.filterMap id) r (steps.forM id r).2 := by
  induction each generalizing r with
  | nil => exact .nothing [] r
  | @cons o step os steps head tail ih =>
    have moved : (Page.recording (MadeFor o)).Moves r.session (id step r).2.session := head.1 r
    rw [Act.forM_cons, Act.bind_apply]
    rcases done : id step r with ⟨e | _, q⟩
    · rw [done] at moved
      exact .step moved (.nothing _ q)
    · rw [done] at moved
      exact .step moved (ih q)

theorem perform_appends (plain : a.forEach = none) (base : Locator) (q : Run Page) :
    Appends Operation.gated q (perform c sub base a q).2 := by
  cases picked : (c.hints a).pick with
  | error e => rw [perform_unpicked picked]; exact .nothing _ q
  | ok pick =>
    cases built : (buildScope (c.hints a) base q.session).1 with
    | error e => rw [perform_lost picked built]; exact .nothing _ q
    | ok scope =>
      rw [perform_apply picked built]
      split
      · exact .nothing _ q
      · exact forM_appends (operations_record plain c sub _) q

/-- The rules of a preparation come first. -/
theorem Appends.prepared (prepared : OnlyPrepared c fs r q) {t : Run Page}
    (rest : Appends Operation.gated q t) : Appends Operation.all r t := by
  obtain ⟨block, made, routing⟩ := prepared.history
  obtain ⟨calls, later, ordered⟩ := rest
  refine ⟨block ++ calls, by rw [later, made, List.append_assoc], .block ?_ ordered⟩
  exact fun call member => Call.operation?_of_isRouting (routing call member)

/-- An action without a loop. -/
theorem forEach_none {b : Bag} (distinct : (Fields.keys fs).Nodup) (lacking : Fields.Lacks fs "forEach")
    (read : Action.ofJson (fillAction b (.obj fs)) = .ok a) : a.forEach = none := by
  refine Option.eq_none_iff_forall_ne_some.mpr fun s loop => ?_
  obtain ⟨v, w, written, found, decoded⟩ := forEach_filled distinct read loop
  cases lacking v written
  cases found.symm.trans (fillAction_unnamed written fun _ => by simp)
  cases decoded

theorem action_appends (distinct : (Fields.keys fs).Nodup) (lacking : Fields.Lacks fs "forEach")
    (c : Setting) (base : Locator) (r : Run Page) :
    Appends Operation.all r (action c base (.obj fs) r).2 := by
  by_cases operates : Action.hasOperation fs = true
  · have prepared := preparation_prepared c fs r
    rcases done : preparation c fs r with ⟨e | _, q⟩
    · rw [done] at prepared
      rw [action_unprepared operates done]
      exact .prepared prepared.onlyPrepared (.nothing _ q)
    · rw [done] at prepared
      refine .prepared prepared.onlyPrepared ?_
      rw [action_after operates done]
      split
      · exact .nothing _ q
      · split
        · rename_i a read
          exact perform_appends (forEach_none distinct lacking read) base q
        · exact .nothing _ q
  · rw [action_idle (by simpa using operates)]
    exact .nothing _ r

/-! ## Any order of fields -/

theorem preparation_perm {σ : Type} [Browser σ] (distinct : (Fields.keys fs).Nodup)
    (permuted : fs.Perm fs') : preparation (σ := σ) c fs = preparation c fs' := by
  have found := Fields.get?_perm distinct permuted
  unfold preparation routeStep
  rw [found "route", found "run", found "as"]

theorem hasOperation_perm (distinct : (Fields.keys fs).Nodup) (permuted : fs.Perm fs') :
    Action.hasOperation fs = Action.hasOperation fs' := by
  unfold Action.hasOperation
  exact congrArg _ (funext (Fields.has_perm distinct permuted))

theorem isBareRun_perm (distinct : (Fields.keys fs).Nodup) (permuted : fs.Perm fs') :
    isBareRun fs = isBareRun fs' := by
  unfold isBareRun
  rw [Fields.has_perm distinct permuted, (Fields.keys_perm permuted).all_eq]

theorem action_perm (distinct : (Fields.keys fs).Nodup) (permuted : fs.Perm fs')
    (readable : Readable c fs r) : action c base (.obj fs) r = action c base (.obj fs') r := by
  have same := hasOperation_perm distinct permuted
  by_cases operates : Action.hasOperation fs = true
  · have operates' : Action.hasOperation fs' = true := same ▸ operates
    have prepared : preparation c fs r = preparation c fs' r :=
      congrFun (preparation_perm distinct permuted) r
    rcases done : preparation c fs r with ⟨e | _, q⟩
    · rw [action_unprepared operates done, action_unprepared operates' (prepared ▸ done)]
    · obtain ⟨a, read⟩ := readable q done
      rw [action_after operates done, action_after operates' (prepared ▸ done),
        isBareRun_perm distinct permuted, read, read_perm distinct permuted read]
  · have idle : Action.hasOperation fs = false := by simpa using operates
    rw [action_idle idle, action_idle (same ▸ idle)]

/-- Operations run in one fixed order, whatever the order in which the fields of their action are
written: with its fields in any order a readable action does exactly the same, and without a loop it
asks its page for one operation after another. -/
theorem operations_ordered (c : Setting) (base : Locator) (distinct : (Fields.keys fs).Nodup)
    (permuted : fs.Perm fs') (readable : Readable c fs r) :
    action c base (.obj fs) r = action c base (.obj fs') r ∧
      (Fields.Lacks fs "forEach" → ∃ calls, InOrder Operation.all calls ∧
        (action c base (.obj fs) r).2.session.history = r.session.history ++ calls) := by
  refine ⟨action_perm distinct permuted readable, fun lacking => ?_⟩
  obtain ⟨calls, appended, ordered⟩ := action_appends distinct lacking c base r
  exact ⟨calls, ordered, appended⟩

/-- A click with its fields from the last to the first. -/
theorem click_ordered :
    action tokenSetting .page (.obj (guardedClick [])) twoParagraphs =
        action tokenSetting .page (.obj (guardedClick []).reverse) twoParagraphs ∧
      ∃ calls, InOrder Operation.all calls ∧
        (action tokenSetting .page (.obj (guardedClick [])) twoParagraphs).2.session.history =
          twoParagraphs.session.history ++ calls := by
  have distinct : (Fields.keys (guardedClick [])).Nodup := by simp [guardedClick, Fields.keys]
  have passes : clickPasses [] (fun _ _ => true) = true := by decide +kernel
  obtain ⟨same, ordered⟩ := operations_ordered tokenSetting .page distinct (List.reverse_perm _).symm
    (clickPasses_readable passes)
  exact ⟨same, ordered fun v found => by cases found⟩

end Exec
end PageSpec
