import PageSpec.Page.Session
import PageSpec.Proofs.Runner.Outcomes
import PageSpec.Url.Basic
/-!
Selecting documents. Documents that are run one at a time are run as if together, because each of
them gets the bench that the ones before it left. So the command that runs a directory does what
running the directory does, and a check selects what a run would run.
-/
namespace PageSpec

namespace Runner
variable {σ : Type} [Browser σ] (config : RunConfig) (given : Option FunctionBag)

/-! ## One at a time -/

/-- Runs one more document, on the bench that the ones before it left. -/
def runNext (sofar : Report × Bench σ) (path : String) : Report × Bench σ :=
  let (r, b) := runFiles config given [path] sofar.2
  (⟨sofar.1.suites ++ r.suites⟩, b)

theorem foldl_runNext (paths : List String) (sofar : Report × Bench σ) :
    paths.foldl (runNext config given) sofar =
      (⟨sofar.1.suites ++ (runFiles config given paths sofar.2).1.suites⟩,
        (runFiles config given paths sofar.2).2) := by
  induction paths generalizing sofar with
  | nil => simp [runFiles]
  | cons path paths ih =>
    rw [List.foldl_cons, ih]
    simp [runNext, runFiles, List.append_assoc]

/-! ## What is reported on -/

theorem runSuite_path (s : Suite) (b : Bench σ) : (runSuite config given s b).1.path = s.path := by
  by_cases none : s.cases = []
  · rw [runSuite_idle b none]
    rfl
  · cases prepared : setUp config given b with
    | error e =>
      rw [runSuite_unready none prepared]
      rfl
    | ok ready => rw [runSuite_ready none prepared]

end Runner

theorem Suite.load_path {files : Files} {path : String} {n : Nat} {s : Suite}
    (loaded : (Suite.load files path n).1 = .ok s) : s.path = path := by
  unfold Suite.load at loaded
  cases reading : Document.read files path with
  | error e =>
    rw [reading] at loaded
    cases loaded
  | ok doc =>
    rw [reading] at loaded
    cases chain : Suite.chainOf files path doc with
    | error e =>
      simp only [chain] at loaded
      cases loaded
    | ok before =>
      simp only [chain] at loaded
      cases loaded
      rfl

namespace Runner
variable {σ : Type} [Browser σ] (config : RunConfig) (given : Option FunctionBag)

theorem runFile_path (path : String) (b : Bench σ) : (runFile config given path b).1.path = path := by
  unfold runFile
  rcases loading : Suite.load b.files path b.untitled with ⟨e | s, n⟩
  · rfl
  · have loaded : (Suite.load b.files path b.untitled).1 = .ok s := by rw [loading]
    dsimp only
    rw [runSuite_path, Suite.load_path loaded]

/-- A run reports on the documents it was given, in order. -/
theorem runFiles_paths (paths : List String) (b : Bench σ) :
    (runFiles config given paths b).1.suites.map (·.path) = paths := by
  induction paths generalizing b with
  | nil => rfl
  | cons path paths ih =>
    change (runFile config given path b).1.path ::
      (runFiles config given paths (runFile config given path b).2).1.suites.map (·.path) = _
    rw [runFile_path, ih]

end Runner

/-! ## Selections -/

theorem Suite.discover_error {files : Files} {directory : String} {e : Failure}
    (failed : Suite.discover files directory = .error e) : e = .missingDirectory directory := by
  unfold Suite.discover at failed
  split at failed
  · cases failed
  · cases failed
    rfl

namespace CommandLine
variable {σ : Type} [Browser σ]

/-- What a run makes of the documents that were selected, or of the failure to select any. -/
def runSelected (config : RunConfig) (b : Bench σ) :
    Except Failure (List String) → Except Failure Report × Bench σ
  | .error e => (.error e, b)
  | .ok [] => (.ok .empty, b)
  | .ok paths =>
    let (r, b) := Runner.runFiles config none paths b
    (.ok r, b)

theorem runSelected_some (config : RunConfig) (b : Bench σ) {paths : List String} (any : paths ≠ []) :
    runSelected config b (.ok paths) =
      (.ok (Runner.runFiles config none paths b).1, (Runner.runFiles config none paths b).2) := by
  cases paths with
  | nil => exact absurd rfl any
  | cons path paths => rfl

theorem runSelected_error {config : RunConfig} {b : Bench σ} {selected : Except Failure (List String)}
    {e : Failure} : (runSelected config b selected).1 = .error e ↔ selected = .error e := by
  unfold runSelected
  split <;> simp

/-- There are no documents below a directory, and this is said of it. -/
inductive Lacks (files : Files) (directory : String) : Failure → Prop
  | missing (unseen : ∀ paths, Suite.discover files directory ≠ .ok paths) :
    Lacks files directory (.missingDirectory directory)
  | empty (found : Suite.discover files directory = .ok []) :
    Lacks files directory (.noDocuments directory)

namespace Selection

/-- What comes of a run, apart from what is told meanwhile. -/
def leaves (s : Selection) (config : RunConfig) (progress : Report.Progress) (b : Bench σ) :
    Except Failure Report × Bench σ :=
  let (r, _, b) := s.run config progress b
  (r, b)

section
variable {s : Selection} {files : Files}

theorem toRun_named (named : s.files ≠ []) : s.toRun files = s.files := by
  have some : s.files.isEmpty = false := by simpa using named
  simp [toRun, some]

theorem toRun_unnamed (unnamed : s.files = []) :
    s.toRun files = (Suite.discover files s.directory).toOption.getD [] := by
  simp [toRun, unnamed]

theorem documents_named (named : s.files ≠ []) : s.documents files = .ok s.files := by
  have some : s.files.isEmpty = false := by simpa using named
  simp [documents, some]

theorem documents_unnamed (unnamed : s.files = []) :
    s.documents files =
      match Suite.discover files s.directory with
      | .ok [] => if s.allowsNone then .ok [] else .error (.noDocuments s.directory)
      | .ok found => .ok found
      | .error e => if s.allowsNone then .ok [] else .error e := by
  unfold documents
  rw [unnamed]
  rfl

/-- Selecting fails for lack of documents, unless it is allowed to find none. -/
theorem documents_error {e : Failure} :
    s.documents files = .error e ↔
      s.files = [] ∧ s.allowsNone = false ∧ Lacks files s.directory e := by
  by_cases unnamed : s.files = []
  · rw [documents_unnamed unnamed]
    cases found : Suite.discover files s.directory with
    | error other =>
      cases Suite.discover_error found
      have lacks : Lacks files s.directory e ↔ e = .missingDirectory s.directory := by
        constructor
        · rintro (_ | empty)
          · rfl
          · rw [found] at empty
            cases empty
        · rintro rfl
          exact .missing fun paths => by simp [found]
      cases s.allowsNone <;> simp [unnamed, lacks, eq_comm]
    | ok paths =>
      have lacks : Lacks files s.directory e ↔ paths = [] ∧ e = .noDocuments s.directory := by
        constructor
        · rintro (unseen | empty)
          · exact absurd found (unseen paths)
          · rw [found] at empty
            cases empty
            exact ⟨rfl, rfl⟩
        · rintro ⟨rfl, rfl⟩
          exact .empty found
      cases paths <;> cases s.allowsNone <;> simp [unnamed, lacks, eq_comm]
  · rw [documents_named unnamed]
    simp [unnamed]

end

section
variable {s : Selection} {config : RunConfig} (progress : Report.Progress) (b : Bench σ)

theorem leaves_none (none : s.toRun b.files = []) :
    s.leaves config progress b = Runner.runDirectory config .none s.directory b := by
  unfold leaves run
  rw [none]

theorem leaves_some {paths : List String} (some : s.toRun b.files = paths) (any : paths ≠ []) :
    s.leaves config progress b = runSelected config b (.ok paths) := by
  unfold leaves run
  rw [some]
  cases paths with
  | nil => exact absurd rfl any
  | cons path paths =>
    dsimp only
    rw [Runner.runEach_eq]
    rfl

/-- Looking for the documents before the run of a directory changes nothing. -/
theorem leaves_directory (unnamed : s.files = []) :
    s.leaves config progress b = Runner.runDirectory config none s.directory b := by
  cases found : Suite.discover b.files s.directory with
  | error e =>
    have chosen : s.toRun b.files = [] := by simp [toRun_unnamed unnamed, found, Except.toOption]
    exact leaves_none progress b chosen
  | ok paths =>
    have chosen : s.toRun b.files = paths := by simp [toRun_unnamed unnamed, found, Except.toOption]
    by_cases any : paths = []
    · exact leaves_none progress b (chosen.trans any)
    · rw [leaves_some progress b chosen any, runSelected_some config b any]
      unfold Runner.runDirectory
      rw [found]
      cases paths with
      | nil => exact absurd rfl any
      | cons path paths => rfl

/-- What is selected for a check is what is run. -/
theorem leaves_selected (agree : s.allowsNone = config.allowsNone) :
    s.leaves config progress b = runSelected config b (s.documents b.files) := by
  by_cases unnamed : s.files = []
  · rw [leaves_directory progress b unnamed, documents_unnamed unnamed, agree]
    unfold Runner.runDirectory
    cases Suite.discover b.files s.directory with
    | error e => cases config.allowsNone <;> rfl
    | ok paths =>
      cases paths with
      | nil => cases config.allowsNone <;> rfl
      | cons path paths => rfl
  · rw [leaves_some progress b (toRun_named unnamed) unnamed, documents_named unnamed]

end

/-- Documents may be run one at a time or together, and a directory by its documents or as a whole:
reports and benches are the same. A check selects what is run, and fails as the run does when there
is nothing to run. -/
theorem run_agrees (config : RunConfig) :
    (∀ (given : Option FunctionBag) (paths : List String) (b : Bench σ),
      paths.foldl (Runner.runNext config given) (⟨[]⟩, b) = Runner.runFiles config given paths b) ∧
    (∀ (s : Selection) (progress : Report.Progress) (b : Bench σ), s.files = [] →
      s.leaves config progress b = Runner.runDirectory config none s.directory b) ∧
    ∀ (s : Selection) (progress : Report.Progress) (b : Bench σ), s.allowsNone = config.allowsNone →
      s.leaves config progress b = runSelected config b (s.documents b.files) ∧
      (∀ paths r, s.documents b.files = .ok paths → paths ≠ [] →
        (s.leaves config progress b).1 = .ok r → r.suites.map (·.path) = paths) ∧
      (∀ e, (s.leaves config progress b).1 = .error e ↔ s.documents b.files = .error e) ∧
      ∀ e, s.documents b.files = .error e ↔
        s.files = [] ∧ s.allowsNone = false ∧ Lacks b.files s.directory e := by
  refine ⟨fun given paths b => ?_, fun s progress b unnamed => leaves_directory progress b unnamed,
    fun s progress b agree => ?_⟩
  · rw [Runner.foldl_runNext, List.nil_append]
  · -- The rest is read off the one equation between a run and its selection.
    have same := leaves_selected (s := s) progress b agree
    refine ⟨same, fun paths r selected any ran => ?_, fun e => ?_, fun e => documents_error⟩
    · rw [same, selected, runSelected_some config b any] at ran
      cases ran
      exact Runner.runFiles_paths config none paths b
    · rw [same, runSelected_error]

/-- A directory with one document, which is blank. -/
def blankBench : Bench Page :=
  ⟨.ofDocument [], ⟨[(["fixtures"], .directory), (["fixtures", "a.json"], .text "")], []⟩, default, 1⟩

/-- The documents of a directory, which has to have some. -/
def below (directory : String) : Selection := ⟨directory, [], none, none, false, .text⟩

theorem fixtures_selected :
    let config : RunConfig := ⟨none, none, none, "", false, 300, 5000, default, Functions.noPrograms, Url.join⟩
    let silent : Report.Progress := ⟨⟨false, false⟩, true, false⟩
    (∃ r, (Runner.runDirectory config none "fixtures" blankBench).1 = .ok r ∧
      r.suites.map (·.path) = ["fixtures/a.json"]) ∧
    ((below "nowhere").leaves config silent blankBench).1 = .error (.missingDirectory "nowhere") := by
  intro config silent
  obtain ⟨_, directory, selects⟩ := run_agrees (σ := Page) config
  have found : (below "fixtures").documents blankBench.files = .ok ["fixtures/a.json"] := by
    have read : ((below "fixtures").documents blankBench.files).toOption = some ["fixtures/a.json"] := by
      decide +kernel
    cases selected : (below "fixtures").documents blankBench.files <;> simp_all [Except.toOption]
  constructor
  · obtain ⟨same, reported, _⟩ := selects (below "fixtures") silent blankBench rfl
    rw [found, runSelected_some config blankBench (by simp)] at same
    have ran := congrArg Prod.fst same
    refine ⟨_, ?_, reported _ _ found (by simp) ran⟩
    have whole := directory (below "fixtures") silent blankBench rfl
    exact (congrArg Prod.fst whole).symm.trans ran
  · obtain ⟨_, _, fails, lacking⟩ := selects (below "nowhere") silent blankBench rfl
    rw [fails, lacking]
    refine ⟨rfl, rfl, .missing fun paths seen => ?_⟩
    have unseen : (Suite.discover blankBench.files "nowhere").toOption = none := by decide +kernel
    cases unseen.symm.trans (congrArg Except.toOption seen)

end Selection
end CommandLine
end PageSpec
