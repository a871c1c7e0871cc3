import PageSpec.Proofs.Execution.Guards
import PageSpec.Proofs.Tokens.Pieces
import PageSpec.Runner.Check
import PageSpec.Url.Basic
/-!
What checking a suite says about running it. The check reads the actions of a case, but not the actions of
their loops, and it takes a `route` without a value for none at all. Without tokens an action is read at
its turn as it was checked; so where a run of a checked suite fails over the form of an action, that form
is wrong in one of these places, unless a function of the caller fails in this way.
-/
namespace PageSpec

/-! ## Without tokens -/

theorem interpolate_plain {b : Bag} {s : String} (plain : '{' ∉ s.toList) : interpolate b s = s := by
  rw [interpolate, Tokens.textPieces_plain plain, Tokens.fill_chars, String.ofList_toList]

mutual
theorem interpolateValue_plain (b : Bag) : ∀ v : Json, hasToken v = false → interpolateValue b v = v
  | .str s, plain => by
    rw [interpolateValue, interpolate_plain (by simpa [hasToken] using plain)]
  | .arr xs, plain => by
    rw [hasToken] at plain
    rw [interpolateValue, interpolateItems_plain b xs plain]
  | .obj fs, plain => by
    rw [hasToken] at plain
    rw [interpolateValue, interpolateFields_plain b fs plain]
  | .null, _ | .bool _, _ | .int _, _ | .float _, _ => rfl
theorem interpolateItems_plain (b : Bag) :
    ∀ xs : List Json, hasTokenItems xs = false → interpolateItems b xs = xs
  | [], _ => rfl
  | x :: xs, plain => by
    obtain ⟨first, others⟩ := Bool.or_eq_false_iff.mp plain
    rw [interpolateItems, interpolateValue_plain b x first, interpolateItems_plain b xs others]
theorem interpolateFields_plain (b : Bag) :
    ∀ fs : Fields, hasTokenFields fs = false → interpolateFields b fs = fs
  | [], _ => rfl
  | (k, v) :: fs, plain => by
    obtain ⟨first, others⟩ := Bool.or_eq_false_iff.mp plain
    rw [interpolateFields, interpolateValue_plain b v first, interpolateFields_plain b fs others]
end

theorem hasTokenItems_mem : ∀ {xs : List Json} {x : Json}, hasTokenItems xs = false → x ∈ xs →
    hasToken x = false
  | y :: ys, x, plain, member => by
    obtain ⟨first, others⟩ := Bool.or_eq_false_iff.mp plain
    rcases List.mem_cons.mp member with rfl | later
    · exact first
    · exact hasTokenItems_mem others later

theorem hasTokenFields_mem : ∀ {fs : Fields} {k : String} {v : Json}, hasTokenFields fs = false →
    (k, v) ∈ fs → hasToken v = false
  | (k', w) :: rest, k, v, plain, member => by
    obtain ⟨first, others⟩ := Bool.or_eq_false_iff.mp plain
    rcases List.mem_cons.mp member with same | later
    · cases same
      exact first
    · exact hasTokenFields_mem others later

theorem part_plain {x v : Json} (part : Json.Part x v) (plain : hasToken v = false) :
    hasToken x = false := by
  cases part with
  | item member =>
    rw [hasToken] at plain
    exact hasTokenItems_mem plain member
  | field member =>
    rw [hasToken] at plain
    exact hasTokenFields_mem plain member

/-- Writing what stands there already. -/
theorem Fields.set_get? : ∀ {fs : Fields} {name : String} {v : Json}, fs.get? name = some v →
    fs.set name v = fs
  | [], _, _, found => nomatch found
  | (k, w) :: rest, name, v, found => by
    by_cases same : k = name
    · simp only [get?, same, ↓reduceIte, Option.some.injEq] at found
      rw [set, if_pos same, found]
    · simp only [get?, same, ↓reduceIte] at found
      rw [set, if_neg same, set_get? found]

/-- A template without tokens is run as it is written. -/
theorem fillAction_plain (b : Bag) {raw : Json} (plain : hasToken raw = false) :
    fillAction b raw = raw := by
  unfold fillAction
  rw [interpolateValue_plain b raw plain]
  cases inside : (raw.field? "forEach").bind (·.field? "actions") with
  | none => cases raw <;> rfl
  | some nested =>
    obtain ⟨written, there, inside⟩ := Option.bind_eq_some_iff.mp inside
    cases raw with
    | obj fs =>
      have found : Fields.get? fs "forEach" = some written := there
      dsimp only
      rw [found]
      cases written with
      | obj loop => dsimp only; rw [Fields.set_get? inside, Fields.set_get? found]
      | null | bool | int | float | str | arr => rfl
    | null | bool | int | float | str | arr => cases there

/-! ## Faults -/

/-- What is wrong with the form of a template, and how it fails over it. -/
inductive Fault : Json → Failure → Prop
  | shape {x : Json} (other : ∀ fs, x ≠ .obj fs) : Fault x (.mistake (.actionShape x))
  | fields {fs : Fields} {m : Misfit} (misread : Action.ofFields fs = .error m) :
    Fault (.obj fs) (.mistake (.action m))
  | route {fs : Fields} {v : Json} {m : Misfit} (written : Fields.get? fs "route" = some v)
    (misread : RouteSpec.decode v = .error m) : Fault (.obj fs) (.mistake (.route m))

theorem Fault.of_ofJson {x : Json} {m : Mistake} (misread : Action.ofJson x = .error m) :
    Fault x (.mistake m) := by
  unfold Action.ofJson at misread
  split at misread
  · split at misread
    · cases misread
    · rename_i fields
      cases misread
      exact .fields fields
  · rename_i other
    cases misread
    exact .shape other

/-- A template is among the actions of the loop that another one writes. -/
def NestedIn (x raw : Json) : Prop :=
  ∃ a s, Action.ofJson raw = .ok a ∧ a.forEach = some s ∧ x ∈ s.actions

/-- Where the form of an action can be wrong behind a check: inside a loop, or in a `route` without a
value; or a function of the caller fails as if it were. -/
inductive Blamed (raws : List Json) (functions : Option FunctionBag) (starter : Functions.Starter)
    (e : Failure) : Prop
  | nested {raw x : Json} (top : raw ∈ raws) (inner : Relation.TransGen NestedIn x raw) (fault : Fault x e)
  | route {fs : Fields} (top : .obj fs ∈ raws) (empty : Fields.get? fs "route" = some .null)
    (fault : Fault (.obj fs) e)
  | function {b : FunctionBag} {name : String} {files : Files} (given : functions = some b)
    (answer : (b.call starter name files).1 = .error e)

/-- A template of a checked list, or one in a loop of such a template. -/
def StandsIn (raws : List Json) (x : Json) : Prop :=
  x ∈ raws ∨ ∃ raw ∈ raws, Relation.TransGen NestedIn x raw

theorem StandsIn.nested {raws : List Json} {x raw : Json} (outer : StandsIn raws raw)
    (inner : NestedIn x raw) : StandsIn raws x := by
  rcases outer with top | ⟨top, member, chain⟩
  · exact .inr ⟨raw, top, .single inner⟩
  · exact .inr ⟨top, member, .head inner chain⟩

/-- A `route` that was read along with its action can be read by itself, if it has a value. -/
theorem Action.route_written {fs : Fields} {a : Action} {v : Json} (read : ofJson (.obj fs) = .ok a)
    (written : Fields.get? fs "route" = some v) : v = .null ∨ ∃ s, RouteSpec.decode v = .ok s := by
  obtain ⟨plain, hints, filled, _⟩ := ofJson_eq_ok read
  obtain ⟨b, b', put⟩ := Decoder.fillFields_each filled (Fields.mem_of_get? written) rfl
  obtain ⟨o, decoded, _⟩ := Decoder.Slot.of_put put
  exact Decoder.optional_ok decoded

variable {raws : List Json} {functions : Option FunctionBag} {starter : Functions.Starter}

/-- Where every template of a list can be read, a fault lies inside, or in a `route` without a value. -/
theorem Fault.blamed {x : Json} {e : Failure} (readable : ∀ raw ∈ raws, ∃ a, Action.ofJson raw = .ok a)
    (stands : StandsIn raws x) (fault : Fault x e) : Blamed raws functions starter e := by
  rcases stands with top | ⟨raw, top, inner⟩
  · obtain ⟨a, read⟩ := readable x top
    cases fault with
    | shape other =>
      cases x with
      | obj fs => exact absurd rfl (other fs)
      | null | bool | int | float | str | arr => cases read
    | fields misread =>
      unfold Action.ofJson at read
      dsimp only at read
      rw [misread] at read
      cases read
    | route written misread =>
      rcases Action.route_written read written with rfl | ⟨s, decoded⟩
      · exact .route top written (.route written misread)
      · cases misread.symm.trans decoded
  · exact .nested top inner fault

/-! ## Running -/

namespace Exec
variable {c : Setting}

/-- Failing over the form of an action only where it can be wrong behind a check. -/
abbrev blaming (raws : List Json) (functions : Option FunctionBag) (starter : Functions.Starter) :
    Bound (Run Page) :=
  ⟨.any, fun e => e.isMalformed = false ∨ Blamed raws functions starter e⟩

theorem roomy_blaming : Roomy Page.looking (blaming raws functions starter) where
  reads := Page.reads_still
  session _ _ _ := trivial
  rest _ _ _ _ := trivial
  may other := .inl other

theorem onSession_blames {α : Type} {a : Act Page α} (acts : (Page.recording fun _ => True).Holds a) :
    (blaming raws functions starter).Holds (onSession a) :=
  ⟨fun _ => trivial, fun r e failed => .inl (acts.2 r.session e failed)⟩

theorem acts_blaming : Acts (blaming raws functions starter) where
  click _ _ := onSession_blames ((Page.click_records _ _).holds trivial)
  hover _ := onSession_blames ((Page.hover_records _).holds trivial)
  fill _ _ := onSession_blames ((Page.fill_records _ _).holds trivial)
  typeText _ _ _ := onSession_blames ((Page.typeText_records _ _ _).holds trivial)
  press _ _ := onSession_blames ((Page.press_records _ _).holds trivial)
  setChecked _ _ := onSession_blames ((Page.setChecked_records _ _).holds trivial)
  selectOptions _ _ := onSession_blames ((Page.selectOptions_records _ _).holds trivial)
  attachFiles _ _ := onSession_blames ((Page.attachFiles_records _ _).holds trivial)
  scrollIntoView _ := onSession_blames ((Page.scrollIntoView_records _).holds trivial)
  scrollPage _ := onSession_blames (Page.record_recording trivial)
  screenshot _ _ := onSession_blames ((Page.screenshot_records _ _).holds trivial)
  awaitResponse _ _ := onSession_blames ((Page.awaitResponse_records _ _).holds trivial)
  typed _ := .modify fun _ => trivial
  got _ := .modify fun _ => trivial

theorem Called.blames {run : Json} {alias_ : Option String} {r q : Run Page} {e : Failure}
    (ended : Called c run alias_ r (.error e) q) :
    e.isMalformed = false ∨ Blamed raws c.functions c.starter e := by
  cases ended with
  | refused early => rcases early with rfl | rfl | ⟨name, rfl⟩ <;> exact .inl rfl
  | failed given named answer => exact .inr (.function given answer)

theorem reading_blames {raw : Json} (readable : ∀ raw ∈ raws, ∃ a, Action.ofJson raw = .ok a)
    (plain : hasToken raw = false) (stands : StandsIn raws raw) :
    (blaming raws c.functions c.starter).Holds (reading c raw) := by
  have faulty {e : Failure} (fault : Fault raw e) : (blaming raws c.functions c.starter).May e :=
    .inr (fault.blamed readable stands)
  refine reading_holds (fun fs same => ?route) (fun fs run same call => ?call)
    (fun other => faulty (.shape other)) (fun b m misread => ?misread)
  case route =>
    subst same
    refine routeStep_holds (fun s => ?_) fun b v m written misread => ?_
    · exact route_holds (fun rule => onSession_blames ((Page.route_records _).holds trivial))
        (fun source => onSession_blames ((Page.unroute_records _).holds trivial)) (.inl rfl) s
    · rw [interpolateValue_plain b v (part_plain (.field (Fields.mem_of_get? written)) plain)] at misread
      exact faulty (.route written misread)
  case call =>
    refine ⟨fun _ => trivial, fun r e failed => ?_⟩
    have ended := runFunction_called (c := c) run (Fields.get? fs "as") r
    rw [failed] at ended
    exact ended.blames
  case misread =>
    rw [fillAction_plain b plain] at misread
    exact faulty (.of_ofJson misread)

theorem action_blames (readable : ∀ raw ∈ raws, ∃ a, Action.ofJson raw = .ok a)
    (plain : ∀ raw ∈ raws, hasToken raw = false) (base : Locator) {raw : Json} (member : raw ∈ raws) :
    (blaming raws c.functions c.starter).Holds (action c base raw) := by
  refine action_holds roomy_blaming acts_blaming (P := fun x => hasToken x = false ∧ StandsIn raws x)
    (fun x held => reading_blames readable held.1 held.2) ?_ raw ⟨plain raw member, .inl member⟩ base
  rintro outer ⟨bare, stands⟩ r q a s read loop x inside
  -- Without tokens a loop hands on what it writes, so that the invariant goes down to it.
  obtain ⟨fs, rfl, decoded⟩ := reading_ok read
  dsimp only at decoded
  rw [fillAction_plain q.bag bare] at decoded
  refine ⟨?_, stands.nested ⟨a, s, decoded, loop, inside⟩⟩
  exact (Action.forEach_inside decoded loop x inside).inherits part_plain bare

end Exec

/-! ## Suites -/

theorem SuiteCase.address_formed (c : SuiteCase) (join : Joiner) (b : Bag) (base : Option String) :
    Formed (c.address join b base) := by
  unfold address
  split
  · exact .ok _
  · dsimp only
    split
    · split
      · exact .ok _
      · exact .error rfl
    · split
      · exact .ok _
      · split
        · exact .error rfl
        · split
          · exact .ok _
          · exact .error rfl

/-- All templates of a suite, those of the cases before it included. -/
def Suite.templates (s : Suite) : List Json := (s.before ++ s.cases).flatMap (·.scenario.actions)

/-- What a check finds nothing wrong with can be read. -/
theorem Suite.readable {s : Suite} {join : Joiner} {base : Option String}
    (clean : s.problems join base = [])
    (plain : ∀ raw ∈ s.templates, hasToken raw = false) :
    ∀ raw ∈ s.templates, ∃ a, Action.ofJson raw = .ok a := by
  intro raw member
  have bare := plain raw member
  obtain ⟨c, own, listed⟩ := List.mem_flatMap.mp member
  have faultless : c.problems join base = [] := List.flatMap_eq_nil_iff.mp clean c own
  obtain ⟨_, unproblematic⟩ := List.append_eq_nil_iff.mp faultless
  obtain ⟨i, placed⟩ := List.mem_iff_getElem?.mp listed
  have checked := List.filterMap_eq_nil_iff.mp unproblematic _ (List.mk_mem_zipIdx_iff_getElem?.mpr placed)
  dsimp only [SuiteCase.actionProblem] at checked
  rw [if_neg (by simp [bare])] at checked
  cases read : Action.ofJson raw with
  | ok a => exact ⟨a, rfl⟩
  | error m => rw [read] at checked; cases checked

namespace Runner
variable {config : RunConfig}

theorem runEntry_blames {s : Suite} {join : Joiner} {base : Option String}
    (clean : s.problems join base = [])
    (plain : ∀ raw ∈ s.templates, hasToken raw = false) {c : SuiteCase} (own : c ∈ s.before ++ s.cases) :
    (Exec.blaming s.templates functions config.starter).Holds (runEntry config functions c) := by
  have room : Exec.Roomy Page.looking (Exec.blaming s.templates functions config.starter) :=
    Exec.roomy_blaming
  refine .bind .get fun r => .bind (room.lifting (c.address_formed _ _ _)) fun address => ?_
  refine .bind (Exec.forSome_holds fun url _ => ?_) fun _ => ?_
  · exact Exec.onSession_blames ((Page.navigate_records _).holds trivial)
  refine .bind (room.remembering fun _ => .empty) fun _ => .forM _ fun raw member => ?_
  have listed : raw ∈ s.templates := List.mem_flatMap.mpr ⟨c, own, member⟩
  exact Exec.action_blames (Suite.readable clean plain) plain .page listed

/-- A checked suite without tokens fails over the form of an action only where the check did not look:
inside a loop, or at a `route` without a value. Otherwise a function of the caller failed so. -/
theorem checked_blames {s : Suite} {join : Joiner} {base : Option String} (config : RunConfig)
    (functions : Option FunctionBag) (clean : s.problems join base = [])
    (plain : ∀ raw ∈ s.templates, hasToken raw = false) :
    (∀ c ∈ s.before ++ s.cases, ∀ (r : Run Page) e, (runEntry config functions c r).1 = .error e →
        e.isMalformed = false ∨ Blamed s.templates functions config.starter e) ∧
      ∀ c ∈ s.cases, ∀ (r : Run Page) e, (runCase config functions s.before c r).1 = .error e →
        e.isMalformed = false ∨ Blamed s.templates functions config.starter e := by
  refine ⟨fun c own => (runEntry_blames clean plain own).2, fun c own => ?_⟩
  suffices held : (Exec.blaming s.templates functions config.starter).Holds
      (runCase config functions s.before c) from held.2
  refine .bind (.modify fun _ => trivial) fun _ => .forM _ fun entry member => ?_
  refine runEntry_blames clean plain (List.mem_append.mpr ?_)
  rcases List.mem_append.mp member with before | last
  · exact .inl before
  · exact .inr (List.mem_singleton.mp last ▸ own)

/-- A document with one case, whose loop over the paragraphs has a number for an action. -/
def numberedRows : SuiteCase :=
  ⟨"rows", "rows", ⟨none, none, [.obj [("forEach", .obj [("items", .str "p"), ("actions", .arr [.int 5])])]],
    none⟩, "", none, "a.json"⟩

def numberedSuite : Suite := ⟨"a.json", "a", none, [], [numberedRows]⟩

def plainConfig : RunConfig :=
  ⟨none, none, none, "", false, 300, 5000, default, Functions.noPrograms, Url.join⟩

theorem numberedSuite_clean : numberedSuite.problems plainConfig.join none = [] :=
  List.isEmpty_iff.mp (by decide +kernel)

theorem numberedSuite_plain : ∀ raw ∈ numberedSuite.templates, hasToken raw = false := by
  simp [Suite.templates, numberedSuite, numberedRows, hasToken, hasTokenItems, hasTokenFields]

/-- Whether a computation fails over the form of an action. -/
def failsMalformed (x : Except Failure Unit) : Bool :=
  match x with
  | .error e => e.isMalformed
  | .ok _ => false

theorem failsMalformed_iff {x : Except Failure Unit} :
    failsMalformed x = true ↔ ∃ e, x = .error e ∧ e.isMalformed = true := by
  cases x with
  | ok _ => exact ⟨nofun, fun ⟨_, same, _⟩ => nomatch same⟩
  | error e => exact ⟨fun held => ⟨e, rfl, held⟩, fun ⟨_, same, held⟩ => Except.error.inj same ▸ held⟩

theorem numberedRows_fails : ∃ e,
    (runCase plainConfig none [] numberedRows Exec.twoParagraphs).1 = .error e ∧ e.isMalformed = true :=
  failsMalformed_iff.mp (by decide +kernel)

/-- A check that finds nothing does not rule out that a run fails over the form of an action. -/
theorem checked_not_wellFormed : ¬ ∀ (s : Suite) (config : RunConfig) (functions : Option FunctionBag),
    s.problems config.join config.base? = [] → (∀ raw ∈ s.templates, hasToken raw = false) →
      ∀ c ∈ s.cases, ∀ (r : Run Page) e, (runCase config functions s.before c r).1 = .error e →
        e.isMalformed = false := by
  intro wellFormed
  obtain ⟨e, failed, malformed⟩ := numberedRows_fails
  have other := wellFormed numberedSuite plainConfig none numberedSuite_clean numberedSuite_plain
    numberedRows List.mem_cons_self Exec.twoParagraphs e failed
  cases malformed.symm.trans other

/-- The number in the loop is what that run fails over. -/
theorem numberedRows_blamed : ∃ e,
    (runCase plainConfig none [] numberedRows Exec.twoParagraphs).1 = .error e ∧ e.isMalformed = true ∧
      Blamed numberedSuite.templates none plainConfig.starter e := by
  obtain ⟨e, failed, malformed⟩ := numberedRows_fails
  refine ⟨e, failed, malformed, ?_⟩
  obtain ⟨_, blames⟩ := checked_blames plainConfig none numberedSuite_clean numberedSuite_plain
  rcases blames numberedRows List.mem_cons_self Exec.twoParagraphs e failed with other | blamed
  · cases malformed.symm.trans other
  · exact blamed

end Runner
end PageSpec
