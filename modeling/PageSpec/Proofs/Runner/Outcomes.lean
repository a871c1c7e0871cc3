import PageSpec.CommandLine.Program
/-!
What becomes of documents and cases. Every document has its report and every case its result, in
order; what failed is never dropped on the way to the totals, the JSON report and the end of a run.
-/
namespace PageSpec

/-! ## Counting -/

namespace SuiteReport

theorem isSuccess_iff {s : SuiteReport} : s.isSuccess = true ↔ ∀ c ∈ s.cases, c.verdict ≠ .failed := by
  simp [isSuccess, count, List.countP_eq_zero]

end SuiteReport

namespace Report

theorem isSuccess_iff {r : Report} : r.isSuccess = true ↔ ∀ s ∈ r.suites, s.isSuccess = true := by
  simp [isSuccess]

private theorem counted (cs : List CaseResult) :
    cs.countP (·.verdict = .passed) + cs.countP (·.verdict = .failed) +
      cs.countP (·.verdict = .skipped) = cs.length := by
  induction cs with
  | nil => rfl
  | cons c cs ih =>
    simp only [List.countP_cons, List.length_cons]
    cases h : c.verdict <;> simp <;> omega

/-- Every case is counted once. -/
theorem counts_total (r : Report) : r.count .passed + r.count .failed + r.count .skipped = r.total :=
  counted r.cases

end Report

namespace Runner
variable {σ : Type} [Browser σ]

/-! ## Cases -/

/-- What the result of a case says about how the case went. -/
structure Tells (c : SuiteCase) (went : Except Failure Unit) (result : CaseResult) : Prop where
  key : result.key = c.key
  title : result.title = c.title
  passed : result.verdict = .passed ↔ went = .ok ()
  failed : result.verdict = .failed ↔ ∃ e, went = .error e

theorem resultOf_tells (c : SuiteCase) (went : Except Failure Unit) : Tells c went (resultOf c went) := by
  cases went with
  | ok _ => exact ⟨rfl, rfl, by simp [resultOf, CaseResult.pass], by simp [resultOf, CaseResult.pass]⟩
  | error e => exact ⟨rfl, rfl, by simp [resultOf, CaseResult.fail], by simp [resultOf, CaseResult.fail]⟩

variable (config : RunConfig)

section
variable (functions : Option FunctionBag) (before : List SuiteCase)

/-- How case number `k` goes, after those before it went as they may. -/
def goes (cs : List SuiteCase) (start : Run σ) (k : Nat) (c : SuiteCase) : Except Failure Unit :=
  ((runCase config functions before c).run (runCases config functions before (cs.take k) start).2).1

theorem runCases_length : ∀ (cs : List SuiteCase) (r : Run σ),
    (runCases config functions before cs r).1.length = cs.length
  | [], _ => rfl
  | _ :: cs, _ => congrArg (· + 1) (runCases_length cs _)

theorem runCases_getElem? : ∀ (cs : List SuiteCase) (r : Run σ) (k : Nat),
    (runCases config functions before cs r).1[k]? =
      cs[k]?.map fun c => resultOf c (goes config functions before cs r k c)
  | [], _, _ => rfl
  | _ :: _, _, 0 => rfl
  | _ :: cs, _, k + 1 => runCases_getElem? cs _ k

end

/-! ## Documents -/

section
variable (given : Option FunctionBag)

/-- Makes a suite ready to run: its functions are found, and then its session is started. -/
def setUp (b : Bench σ) : Except Failure (Option FunctionBag × Run σ) :=
  match functionsFor config given b.files with
  | .error e => .error e
  | .ok functions =>
    match (Browser.start : Act σ Unit).run b.session with
    | (.error e, _) => .error e
    | (.ok (), session) => .ok (functions, .fresh session (config.options.begin b.supply) b.files)

/-- What the report of a document has to say. -/
inductive Accounted (path : String) (b : Bench σ) : SuiteReport → Prop
  | unreadable {e : Failure} (loaded : (Suite.load b.files path b.untitled).1 = .error e) :
    Accounted path b ⟨path, path, [.fail "setup" "suite setup" e.message], 0⟩
  | idle {s : Suite} (loaded : (Suite.load b.files path b.untitled).1 = .ok s) (none : s.cases = []) :
    Accounted path b ⟨s.title, s.path, [.skip "noop" s!"{s.title}: no cases"], 0⟩
  | unready {s : Suite} {e : Failure} (loaded : (Suite.load b.files path b.untitled).1 = .ok s)
    (some : s.cases ≠ []) (unready : setUp config given b = .error e) :
    Accounted path b ⟨s.title, s.path, [.fail "setup" "suite setup" e.message], 0⟩
  | ran {s : Suite} {functions : Option FunctionBag} {start : Run σ} {results : List CaseResult}
    (loaded : (Suite.load b.files path b.untitled).1 = .ok s) (some : s.cases ≠ [])
    (ready : setUp config given b = .ok (functions, start)) (each : results.length = s.cases.length)
    (tells : ∀ k c, s.cases[k]? = .some c → ∃ result, results[k]? = .some result ∧
      Tells c (goes config functions s.before s.cases start k c) result) :
    Accounted path b ⟨s.title, s.path, results, 0⟩

/-- A document that cannot be loaded or made ready, or one with a case that fails. -/
inductive Troubled (path : String) (b : Bench σ) : Prop
  | unreadable {e : Failure} (loaded : (Suite.load b.files path b.untitled).1 = .error e)
  | unready {s : Suite} {e : Failure} (loaded : (Suite.load b.files path b.untitled).1 = .ok s)
    (some : s.cases ≠ []) (unready : setUp config given b = .error e)
  | failed {s : Suite} {functions : Option FunctionBag} {start : Run σ} {k : Nat} {c : SuiteCase}
    {e : Failure} (loaded : (Suite.load b.files path b.untitled).1 = .ok s)
    (ready : setUp config given b = .ok (functions, start)) (own : s.cases[k]? = .some c)
    (went : goes config functions s.before s.cases start k c = .error e)

variable {config given}

theorem runSuite_idle {s : Suite} (b : Bench σ) (none : s.cases = []) :
    (runSuite config given s b).1 = .noCases s.title s.path := by
  simp [runSuite, none]

/-- What is ready to run is in a session that has started, and fresh otherwise. -/
theorem setUp_ok {b : Bench σ} {functions : Option FunctionBag} {start : Run σ}
    (ready : setUp config given b = .ok (functions, start)) :
    functionsFor config given b.files = .ok functions ∧
      (Browser.start : Act σ Unit).run b.session = (.ok (), start.session) ∧
      start = .fresh start.session (config.options.begin b.supply) b.files := by
  unfold setUp at ready
  cases found : functionsFor config given b.files with
  | error e => rw [found] at ready; cases ready
  | ok _ =>
    rw [found] at ready
    dsimp only at ready
    rcases started : (Browser.start : Act σ Unit).run b.session with ⟨e | _, session⟩
    · rw [started] at ready; cases ready
    · rw [started] at ready; cases ready
      exact ⟨rfl, rfl, rfl⟩

theorem runSuite_unready {s : Suite} {b : Bench σ} {e : Failure} (some : s.cases ≠ [])
    (unready : setUp config given b = .error e) :
    (runSuite config given s b).1 = .notReady s.title s.path e := by
  have busy : s.cases.isEmpty = false := by simpa using some
  unfold runSuite
  rw [busy]
  unfold setUp at unready
  cases found : functionsFor config given b.files with
  | error e' => rw [found] at unready; cases unready; rfl
  | ok functions =>
    rw [found] at unready
    dsimp only at unready ⊢
    rcases started : (Browser.start : Act σ Unit).run b.session with ⟨e' | _, session⟩
    · rw [started] at unready; cases unready; rfl
    · rw [started] at unready; cases unready

/-- A suite that is ready runs its cases, and then its session is closed. -/
theorem runSuite_ready {s : Suite} {b : Bench σ} {functions : Option FunctionBag} {start : Run σ}
    (some : s.cases ≠ []) (ready : setUp config given b = .ok (functions, start)) :
    runSuite config given s b =
      let (results, r) := runCases config functions s.before s.cases start
      (⟨s.title, s.path, results, 0⟩,
        { b with
          session := ((Browser.close : Act σ Unit).run r.session).2, files := r.files
          supply := r.source.supply }) := by
  have busy : s.cases.isEmpty = false := by simpa using some
  obtain ⟨found, started, fresh⟩ := setUp_ok ready
  unfold runSuite
  rw [busy, found]
  dsimp only
  rw [started, fresh]
  rfl

theorem runFile_accounted (path : String) (b : Bench σ) :
    Accounted config given path b (runFile config given path b).1 := by
  unfold runFile
  rcases loading : Suite.load b.files path b.untitled with ⟨e | s, n⟩
  · exact .unreadable (by rw [loading])
  · have loaded : (Suite.load b.files path b.untitled).1 = .ok s := by rw [loading]
    dsimp only
    by_cases none : s.cases = []
    · rw [runSuite_idle _ none]
      exact .idle loaded none
    · cases prepared : setUp config given b with
      | error e =>
        rw [runSuite_unready (b := { b with untitled := n }) none prepared]
        exact .unready loaded none prepared
      | ok ready =>
        obtain ⟨functions, start⟩ := ready
        rw [runSuite_ready (b := { b with untitled := n }) none prepared]
        refine .ran loaded none prepared (runCases_length ..) fun k c own => ?_
        refine ⟨_, ?_, resultOf_tells c _⟩
        rw [runCases_getElem?, own, Option.map_some]

private theorem sole_failure {title path e : String} :
    ¬ ∀ c ∈ (⟨title, path, [.fail "setup" "suite setup" e], 0⟩ : SuiteReport).cases, c.verdict ≠ .failed :=
  fun clean => clean _ List.mem_cons_self rfl

/-- A report without failed cases is that of a document without trouble. -/
theorem accounted_isSuccess {path : String} {b : Bench σ} {report : SuiteReport}
    (accounted : Accounted config given path b report) :
    report.isSuccess = true ↔ ¬ Troubled config given path b := by
  rw [SuiteReport.isSuccess_iff]
  cases accounted with
  | unreadable loaded => exact iff_of_false sole_failure fun clean => clean (.unreadable loaded)
  | unready loaded some unready =>
    exact iff_of_false sole_failure fun clean => clean (.unready loaded some unready)
  | idle loaded none =>
    refine iff_of_true (by simp [CaseResult.skip]) fun troubled => ?_
    cases troubled with
    | unreadable other => cases loaded.symm.trans other
    | unready other some =>
      cases loaded.symm.trans other
      exact some none
    | failed other _ own =>
      cases loaded.symm.trans other
      rw [none] at own
      cases own
  | ran loaded some ready each tells =>
    constructor
    · intro clean troubled
      cases troubled with
      | unreadable other => cases loaded.symm.trans other
      | unready other _ unready =>
        cases ready.symm.trans unready
      | failed other again own went =>
        cases loaded.symm.trans other
        cases ready.symm.trans again
        obtain ⟨result, placed, told⟩ := tells _ _ own
        exact clean result (List.mem_of_getElem? placed) (told.failed.mpr ⟨_, went⟩)
    · intro clean result member failed
      obtain ⟨k, placed⟩ := List.getElem?_of_mem member
      obtain ⟨inside, _⟩ := List.getElem?_eq_some_iff.mp placed
      have own := List.getElem?_eq_getElem (each ▸ inside)
      obtain ⟨same, found, told⟩ := tells k _ own
      cases placed.symm.trans found
      obtain ⟨e, went⟩ := told.failed.mp failed
      exact clean (.failed loaded ready own went)

/-! ## Runs -/

theorem runFiles_length : ∀ (paths : List String) (b : Bench σ),
    (runFiles config given paths b).1.suites.length = paths.length
  | [], _ => rfl
  | _ :: paths, _ => congrArg (· + 1) (runFiles_length paths _)

theorem runFiles_getElem? : ∀ (paths : List String) (b : Bench σ) (i : Nat),
    (runFiles config given paths b).1.suites[i]? =
      paths[i]?.map fun path => (runFile config given path (runFiles config given (paths.take i) b).2).1
  | [], _, _ => rfl
  | _ :: _, _, 0 => rfl
  | _ :: paths, _, i + 1 => runFiles_getElem? paths _ i

/-- Documents that are run one at a time are run all the same. -/
theorem runEach_eq : ∀ (paths : List String) (b : Bench σ),
    CommandLine.runEach config paths b = runFiles config none paths b
  | [], _ => rfl
  | path :: paths, b => by
    have rest := runEach_eq paths (runFile config none path b).2
    have first : CommandLine.runEach config (path :: paths) b =
        (⟨(runFile config none path b).1 ::
            (CommandLine.runEach config paths (runFile config none path b).2).1.suites⟩,
          (CommandLine.runEach config paths (runFile config none path b).2).2) := rfl
    rw [first, rest]
    rfl

variable (config given) in
/-- No document is in trouble when its turn comes. -/
def Untroubled (paths : List String) (b : Bench σ) : Prop :=
  ∀ i path, paths[i]? = some path → ¬ Troubled config given path (runFiles config given (paths.take i) b).2

theorem runFiles_isSuccess (paths : List String) (b : Bench σ) :
    (runFiles config given paths b).1.isSuccess = true ↔ Untroubled config given paths b := by
  rw [Report.isSuccess_iff]
  constructor
  · intro clean i path asked
    have placed : (runFiles config given paths b).1.suites[i]? = _ := runFiles_getElem? paths b i
    rw [asked, Option.map_some] at placed
    exact (accounted_isSuccess (runFile_accounted path _)).mp (clean _ (List.mem_of_getElem? placed))
  · intro untroubled report member
    obtain ⟨i, placed⟩ := List.getElem?_of_mem member
    rw [runFiles_getElem?] at placed
    obtain ⟨path, asked, rfl⟩ := Option.map_eq_some_iff.mp placed
    exact (accounted_isSuccess (runFile_accounted path _)).mpr (untroubled i path asked)

end

/-- Nothing that is run goes missing, and nothing that fails passes for a success: documents and
their cases are reported one by one in order, and report, JSON and exit agree on the outcome. -/
theorem runFiles_accounts (config : RunConfig) (given : Option FunctionBag) (paths : List String)
    (b : Bench σ) :
    let report := (runFiles config given paths b).1
    report.suites.length = paths.length ∧
      (∀ i path, paths[i]? = some path → ∃ suite, report.suites[i]? = some suite ∧
        Accounted config given path (runFiles config given (paths.take i) b).2 suite) ∧
      (report.isSuccess = true ↔ Untroubled config given paths b) ∧
      (report.document.field? "success" = some (.bool true) ↔ Untroubled config given paths b) ∧
      (CommandLine.conclude report = .ok () ↔ Untroubled config given paths b) ∧
      (¬ Untroubled config given paths b →
        CommandLine.conclude report = .error (.casesFailed (report.count .failed) report.total)) ∧
      report.count .passed + report.count .failed + report.count .skipped = report.total := by
  intro report
  have succeeded : report.isSuccess = true ↔ Untroubled config given paths b :=
    runFiles_isSuccess paths b
  refine ⟨runFiles_length paths b, fun i path asked => ?_, succeeded, ?_, ?_, fun troubled => ?_,
    report.counts_total⟩
  · refine ⟨_, ?_, runFile_accounted path _⟩
    rw [runFiles_getElem?, asked, Option.map_some]
  · rw [← succeeded]
    have written : report.document.field? "success" = some (.bool report.isSuccess) := rfl
    rw [written, Option.some.injEq, Json.bool.injEq]
  · rw [← succeeded]
    unfold CommandLine.conclude
    split <;> simp [*]
  · rw [← succeeded] at troubled
    unfold CommandLine.conclude
    rw [if_neg troubled]

end Runner
end PageSpec
