import PageSpec.Execution.Action
import PageSpec.Report.Basic
import PageSpec.Suite.Basic
import PageSpec.Suite.Loading
/-!
Running suites. Every suite has a session of its own, in which its cases run in order; a case that
fails is noted and the next one goes on. Before each case run the cases that its document names. A
case starts with an empty bag, which these cases share with it, and every entry with an empty memo.
-/
namespace PageSpec

/-- How documents are run. -/
structure RunConfig where
  baseUrl : Option String
  /-- Used in place of `baseUrl` if it is there. -/
  baseUrlOverride : Option String
  /-- The file of the function bag. -/
  functionsPath : Option String
  /-- Where function bags are looked for. -/
  projectRoot : String
  /-- Finding no documents is no failure. -/
  allowsNone : Bool
  slowDelay : Nat
  expectTimeout : Nat
  options : Dynamic.Options
  starter : Functions.Starter
  join : Joiner

/-- The base that URLs are joined onto: what overrides the usual one, else that one. A blank one is
none. -/
def effectiveBase (override usual : Option String) : Option String :=
  ((override.or usual).map Text.trim).filter (· ≠ "")

namespace RunConfig

/-- The base that URLs are joined onto. -/
def base? (c : RunConfig) : Option String := effectiveBase c.baseUrlOverride c.baseUrl

def settings (c : RunConfig) : Settings :=
  { Settings.default with
    slowDelay := c.slowDelay, patience := { Patience.default with timeout := c.expectTimeout } }

end RunConfig

/-- What runs change: the session, the files, what is left of the supply, and the number of the next
untitled suite. -/
structure Bench (σ : Type) where
  session : σ
  files : Files
  supply : Dynamic.Supply
  untitled : Nat

namespace Runner
variable {σ : Type} [Browser σ]

/-! ## Cases -/

/-- Goes to the start of a case and runs its actions. -/
def runEntry (config : RunConfig) (functions : Option FunctionBag) (c : SuiteCase) : Exec σ Unit := do
  let address ← Exec.lift (c.address config.join (← get).bag config.base?)
  Exec.forSome address fun url => Exec.onSession (Browser.navigate url)
  modify fun r => { r with memo := .empty }
  let setting : Setting :=
    { settings := config.settings, options := config.options, functions := functions
      starter := config.starter, context := c.scenario.context, directory := c.directory }
  c.scenario.actions.forM (Exec.action setting .page)

/-- Runs a case after those before it, from an empty bag. -/
def runCase (config : RunConfig) (functions : Option FunctionBag) (before : List SuiteCase)
    (c : SuiteCase) : Exec σ Unit := do
  modify fun r => { r with bag := .empty }
  (before ++ [c]).forM (runEntry config functions)

/-- The result of a case. -/
def resultOf (c : SuiteCase) : Except Failure Unit → CaseResult
  | .ok () => .pass c.key c.title
  | .error e => .fail c.key c.title e.message

/-- Runs cases one by one, whatever becomes of them. -/
def runCases (config : RunConfig) (functions : Option FunctionBag) (before : List SuiteCase) :
    List SuiteCase → Run σ → List CaseResult × Run σ
  | [], r => ([], r)
  | c :: cs, r =>
    let (x, r) := (runCase config functions before c).run r
    let (results, r) := runCases config functions before cs r
    (resultOf c x :: results, r)

/-! ## Suites -/

/-- The functions of a suite: the given ones, or those of the project. -/
def functionsFor (config : RunConfig) (given : Option FunctionBag) (files : Files) :
    Except Failure (Option FunctionBag) :=
  match given with
  | some b => .ok (some b)
  | none => FunctionBag.discover files config.projectRoot config.functionsPath

/-- Runs a suite in a session that is started for it and closed after it. -/
def runSuite (config : RunConfig) (given : Option FunctionBag) (s : Suite) (b : Bench σ) :
    SuiteReport × Bench σ :=
  if s.cases.isEmpty then (.noCases s.title s.path, b)
  else
    match functionsFor config given b.files with
    | .error e => (.notReady s.title s.path e, b)
    | .ok functions =>
      match (Browser.start : Act σ Unit).run b.session with
      | (.error e, session) => (.notReady s.title s.path e, { b with session := session })
      | (.ok (), session) =>
        let start : Run σ := .fresh session (config.options.begin b.supply) b.files
        let (results, r) := runCases config functions s.before s.cases start
        let (_, session) := (Browser.close : Act σ Unit).run r.session
        (⟨s.title, s.path, results, 0⟩,
          { b with session := session, files := r.files, supply := r.source.supply })

/-! ## Documents -/

/-- Loads a document and runs it. -/
def runFile (config : RunConfig) (given : Option FunctionBag) (path : String) (b : Bench σ) :
    SuiteReport × Bench σ :=
  let (loaded, n) := Suite.load b.files path b.untitled
  let b := { b with untitled := n }
  match loaded with
  | .ok s => runSuite config given s b
  | .error e => (.notReady path path e, b)

/-- Runs documents in order. -/
def runFiles (config : RunConfig) (given : Option FunctionBag) :
    List String → Bench σ → Report × Bench σ
  | [], b => (⟨[]⟩, b)
  | p :: ps, b =>
    let (s, b) := runFile config given p b
    let (r, b) := runFiles config given ps b
    (⟨s :: r.suites⟩, b)

/-- Runs the documents below a directory. -/
def runDirectory (config : RunConfig) (given : Option FunctionBag) (dir : String) (b : Bench σ) :
    Except Failure Report × Bench σ :=
  match Suite.discover b.files dir with
  | .error e => (if config.allowsNone then .ok .empty else .error e, b)
  | .ok [] => (if config.allowsNone then .ok .empty else .error (.noDocuments dir), b)
  | .ok paths =>
    let (r, b) := runFiles config given paths b
    (.ok r, b)

end Runner
end PageSpec
