import PageSpec.Proofs.Page.Recorded
import PageSpec.Proofs.Runner.Checked
import PageSpec.Proofs.Runner.Outcomes
/-!
What a suite asks of its session. The session is started before the first case and closed after the last
one, whatever becomes of the cases, and at no other time; what lies between is asked by the cases in order.
-/
namespace PageSpec.Runner
open Browser (Carries Recorder)

/-! ## Entries -/

section
variable {σ : Type} [Browser σ] {D : Drift σ}

theorem runEntry_carried (carries : Carries D) (config : RunConfig) (functions : Option FunctionBag)
    (c : SuiteCase) : D.onSession.Allows (runEntry config functions c) := by
  refine .bind .get fun r => .bind (fun q => D.onSession.refl q) fun address => ?_
  have goes : D.onSession.Allows (Exec.forSome address fun url => Exec.onSession (Browser.navigate url)) :=
    (Exec.forSome_holds fun url _ => Exec.onSession_moves (carries (.navigate url) rfl)).1
  refine .bind goes fun _ => .bind (.modify fun q => D.refl q.session) fun _ => ?_
  exact .forM _ fun raw _ => Exec.action_carried carries _ .page raw

end

section
variable {σ : Type} [Browser σ] (config : RunConfig) (functions : Option FunctionBag)

/-- The entries that are run, each with the run it starts from: all of them, or those up to the first one
that fails. -/
def entriesRun : List SuiteCase → Run σ → List (SuiteCase × Run σ)
  | [], _ => []
  | c :: cs, r =>
    (c, r) ::
      match runEntry config functions c r with
      | (.ok (), q) => entriesRun cs q
      | (.error _, _) => []

/-- The own cases of a suite, each with the run it starts from. -/
def casesRun (before : List SuiteCase) : List SuiteCase → Run σ → List (SuiteCase × Run σ)
  | [], _ => []
  | c :: cs, r => (c, r) :: casesRun before cs (runCase config functions before c r).2

/-- Entries are run in order from the first one on. One that passes is followed by the next one, and one
that fails by none. -/
structure UpToFailure (cs : List SuiteCase) (ran : List (SuiteCase × Run σ)) : Prop where
  any : cs ≠ [] → ran ≠ []
  order : ran.map (·.1) <+: cs
  next : ∀ {i c r}, ran[i]? = some (c, r) →
    (i + 1 < ran.length ↔ i + 1 < cs.length ∧ (runEntry config functions c r).1 = .ok ())

variable {config functions}

theorem entriesRun_order (cs : List SuiteCase) (r : Run σ) :
    (entriesRun config functions cs r).map (·.1) <+: cs := by
  induction cs generalizing r with
  | nil => exact ⟨[], rfl⟩
  | cons c cs ih =>
    rw [entriesRun, List.map_cons, List.cons_prefix_cons]
    refine ⟨rfl, ?_⟩
    rcases runEntry config functions c r with ⟨e | _, q⟩
    · exact ⟨cs, rfl⟩
    · exact ih q

theorem entriesRun_next {cs : List SuiteCase} {r : Run σ} {i : Nat} {c : SuiteCase} {q : Run σ}
    (ran : (entriesRun config functions cs r)[i]? = some (c, q)) :
    i + 1 < (entriesRun config functions cs r).length ↔
      i + 1 < cs.length ∧ (runEntry config functions c q).1 = .ok () := by
  -- The first entry decides whether there are others; from then on it is about these.
  induction cs generalizing r i with
  | nil => cases ran
  | cons first cs ih =>
    rw [entriesRun] at ran ⊢
    rcases went : runEntry config functions first r with ⟨e | _, next⟩
    · rw [went] at ran
      cases i with
      | zero =>
        cases ran
        simp [went]
      | succ i => cases ran
    · rw [went] at ran
      cases i with
      | zero =>
        cases ran
        cases cs with
        | nil => simp [entriesRun]
        | cons second cs => simp [entriesRun, went]
      | succ i =>
        have later := ih ran
        simpa using later

theorem entriesRun_upToFailure (cs : List SuiteCase) (r : Run σ) :
    UpToFailure config functions cs (entriesRun config functions cs r) where
  any := by cases cs <;> simp [entriesRun]
  order := entriesRun_order cs r
  next := entriesRun_next

theorem casesRun_cases (before : List SuiteCase) (cs : List SuiteCase) (r : Run σ) :
    (casesRun config functions before cs r).map (·.1) = cs := by
  induction cs generalizing r with
  | nil => rfl
  | cons c cs ih => rw [casesRun, List.map_cons, ih]

/-! ## Calls -/

variable {κ : Type} (R : Recorder σ κ) (config functions)

/-- What an entry asks of the session. -/
def entryCalls (c : SuiteCase) (r : Run σ) : List κ :=
  R.between r.session (runEntry config functions c r).2.session

/-- What entries ask of the session one after another, up to the first one that fails. -/
def entriesCalls (cs : List SuiteCase) (r : Run σ) : List κ :=
  (entriesRun config functions cs r).flatMap fun (c, q) => entryCalls config functions R c q

/-- What own cases ask of the session one after another, each after the cases before it. -/
def casesCalls (before cs : List SuiteCase) (r : Run σ) : List κ :=
  (casesRun config functions before cs r).flatMap fun (c, q) =>
    entriesCalls config functions R (before ++ [c]) { q with bag := .empty }

variable {config functions}

theorem entriesCalls_recorded (cs : List SuiteCase) (r : Run σ) :
    R.log (cs.forM (runEntry config functions) r).2.session =
        R.log r.session ++ entriesCalls config functions R cs r ∧
      R.Inner (entriesCalls config functions R cs r) := by
  induction cs generalizing r with
  | nil => exact ⟨(List.append_nil _).symm, R.inner_nil⟩
  | cons c cs ih =>
    have first : R.log (runEntry config functions c r).2.session =
          R.log r.session ++ entryCalls config functions R c r ∧
        R.Inner (entryCalls config functions R c r) :=
      runEntry_carried R.carries_within config functions c r
    rw [Act.forM_cons, Act.bind_apply, entriesCalls, entriesRun, List.flatMap_cons]
    rcases went : runEntry config functions c r with ⟨e | _, q⟩
    · -- It fails, so that nothing comes after what it asked for itself.
      rw [went] at first
      simpa using first
    · obtain ⟨recorded, inner⟩ := first
      obtain ⟨later, inner'⟩ := ih q
      rw [went] at recorded
      refine ⟨?_, inner.append inner'⟩
      rw [later, recorded, List.append_assoc]
      rfl

theorem casesCalls_recorded (before cs : List SuiteCase) (r : Run σ) :
    R.log (runCases config functions before cs r).2.session =
        R.log r.session ++ casesCalls config functions R before cs r ∧
      R.Inner (casesCalls config functions R before cs r) := by
  induction cs generalizing r with
  | nil => exact ⟨(List.append_nil _).symm, R.inner_nil⟩
  | cons c cs ih =>
    have first : R.log (runCase config functions before c r).2.session = R.log r.session ++
          entriesCalls config functions R (before ++ [c]) { r with bag := .empty } ∧
        R.Inner (entriesCalls config functions R (before ++ [c]) { r with bag := .empty }) :=
      entriesCalls_recorded R (before ++ [c]) { r with bag := .empty }
    obtain ⟨recorded, inner⟩ := first
    obtain ⟨later, inner'⟩ := ih (runCase config functions before c r).2
    rw [casesCalls, casesRun, List.flatMap_cons]
    refine ⟨?_, inner.append inner'⟩
    calc R.log (runCases config functions before (c :: cs) r).2.session
      _ = R.log (runCases config functions before cs (runCase config functions before c r).2).2.session := rfl
      _ = _ := by
        rw [later, recorded, List.append_assoc]
        rfl

/-! ## Suites -/

variable {given : Option FunctionBag} {s : Suite} {b : Bench σ}

/-- Nothing is changed where there is nothing to run, or no bag to run it with. -/
theorem runSuite_still (idle : s.cases = [] ∨ ∃ e, functionsFor config given b.files = .error e) :
    (runSuite config given s b).2 = b := by
  unfold runSuite
  by_cases none : s.cases = []
  · simp [none]
  · obtain ⟨e, unfound⟩ := idle.resolve_left none
    simp [none, unfound]

end

/-- The session of a suite is opened once, before everything else, and closed once, after everything else.
In between it is asked by the own cases in order: for each of them by the cases before it and then by
itself, up to the first that fails. A suite without own cases or without its functions asks nothing. -/
theorem runSuite_brackets {σ κ : Type} [Browser σ] (R : Recorder σ κ) (config : RunConfig)
    (given : Option FunctionBag) (s : Suite) (b : Bench σ) :
    (s.cases = [] ∨ (∃ e, functionsFor config given b.files = .error e) →
      (runSuite config given s b).2 = b) ∧
    ∀ functions start, s.cases ≠ [] → setUp config given b = .ok (functions, start) →
      R.log (runSuite config given s b).2.session = R.log b.session ++
        [R.opened] ++ casesCalls config functions R s.before s.cases start ++ [R.closed] ∧
      R.Inner (casesCalls config functions R s.before s.cases start) ∧
      (casesRun config functions s.before s.cases start).map (·.1) = s.cases ∧
      ∀ c (r : Run σ), UpToFailure config functions (s.before ++ [c])
        (entriesRun config functions (s.before ++ [c]) r) := by
  refine ⟨runSuite_still, fun functions start some ready => ?_⟩
  obtain ⟨recorded, inner⟩ := casesCalls_recorded R s.before s.cases start
  refine ⟨?_, inner, casesRun_cases .., fun c r => entriesRun_upToFailure ..⟩
  have opened : R.log start.session = R.log b.session ++ [R.opened] := by
    obtain ⟨_, started, _⟩ := setUp_ok ready
    exact (congrArg (fun x => R.log x.2) started).symm.trans (R.log_start b.session)
  rw [runSuite_ready some ready, ← opened, ← recorded]
  exact R.log_close _

/-- Before each case the first paragraph is clicked; then one case fails, and one passes. -/
def clickingSuite : Suite :=
  let clicking (key : String) (targets : List String) : SuiteCase :=
    ⟨key, key, ⟨none, none, targets.map fun t => .obj [("click", .str t)], none⟩, "", none, "a.json"⟩
  ⟨"a.json", "a", none, [clicking "first" ["#a"]], [clicking "fails" ["#c", "#b"], clicking "passes" ["#b"]]⟩

def paragraphBench : Bench Page := ⟨Exec.twoParagraphs.session, .empty, default, 1⟩

/-- What it asks of the page. -/
def clickingCalls : List String :=
  ["open", "click:css=\"#a\" >> first", "click:css=\"#a\" >> first", "click:css=\"#b\" >> first", "close"]

def paragraphStart : Run Page :=
  .fresh ((Browser.start : Act Page Unit) paragraphBench.session).2 (plainConfig.options.begin default) .empty

theorem clickingSuite_bracketed :
    (Page.recorder.log (runSuite plainConfig none clickingSuite paragraphBench).2.session).map Call.describe =
      clickingCalls ∧
    (runSuite plainConfig none { clickingSuite with cases := [] } paragraphBench).2 = paragraphBench := by
  have ready : setUp plainConfig none paragraphBench = .ok (none, paragraphStart) := rfl
  have shown : (Page.recorder.log paragraphBench.session ++ [Page.recorder.opened] ++
      casesCalls plainConfig none Page.recorder clickingSuite.before clickingSuite.cases paragraphStart ++
        [Page.recorder.closed]).map Call.describe = clickingCalls := by decide +kernel
  refine ⟨?_, ?_⟩
  · obtain ⟨_, bracketed⟩ := runSuite_brackets Page.recorder plainConfig none clickingSuite paragraphBench
    obtain ⟨recorded, _⟩ := bracketed none paragraphStart (by simp [clickingSuite]) ready
    rw [recorded]
    exact shown
  · obtain ⟨idle, _⟩ :=
      runSuite_brackets Page.recorder plainConfig none { clickingSuite with cases := [] } paragraphBench
    exact idle (.inl rfl)

end PageSpec.Runner
