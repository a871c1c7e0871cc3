import PageSpec.CommandLine.Invocation
import PageSpec.CommandLine.Sample
import PageSpec.Report.Rendering
import PageSpec.Runner.Check
/-!
What the commands do. A command prints on the standard output what it was asked for and tells on the
standard error how it goes; how it ends is its exit code.
-/
namespace PageSpec.CommandLine

/-- Why a command fails. -/
inductive Fault where
  /-- There is no browser to run documents in. -/
  | noBrowser
  | casesFailed (failed total : Nat)
  | problemsFound (count : Nat)
  | badArgument (cause : Failure)
  | io (cause : IoFault)
  | failure (cause : Failure)

def Fault.message : Fault → String
  | .noBrowser => "Configuration error: jsonwright was built without the \x60browser\x60 feature"
  | .casesFailed failed total => s!"{failed} of {total} case(s) failed"
  | .problemsFound count => s!"{count} problem(s) found in specification documents"
  | .badArgument cause => s!"Invalid argument: {cause.message}"
  | .io cause => s!"I/O error: {cause.message}"
  | .failure cause => cause.message

/-- What a command leaves. -/
structure Outcome where
  /-- Texts on the standard output; a line ends after each. -/
  printed : List String
  /-- Texts on the standard error; a line ends after each. -/
  told : List String
  result : Except Fault Unit

namespace Outcome

/-- All texts on the standard error. The last one says why a command failed. -/
def errors (o : Outcome) : List String :=
  match o.result with
  | .ok () => o.told
  | .error e => o.told ++ [s!"Error: {e.message}"]

def exitCode (o : Outcome) : Nat :=
  match o.result with
  | .ok () => 0
  | .error _ => 1

def failed (e : Fault) : Outcome := ⟨[], [], .error e⟩

end Outcome

/-- What the program finds around itself. -/
structure Surroundings where
  env : String → Option String
  /-- Whether lines go to a terminal. -/
  terminal : Bool
  /-- How other programs are started. -/
  starter : Functions.Starter
  join : Joiner
  /-- The clock, and keys of random words. -/
  supply : Dynamic.Supply

/-- Escape codes are for terminals, and for those who insist on them. -/
def Display.style (d : Display) (around : Surroundings) : Report.Style :=
  ⟨d.decoration.applies around.terminal,
    around.terminal || (around.env "CLICOLOR_FORCE").any (· ≠ "0")⟩

def Display.progress (d : Display) (around : Surroundings) : Report.Progress :=
  ⟨d.style around, d.verbosity.isQuiet, d.verbosity.isVerbose⟩

/-! ## Running -/

def Format.render : Format → Report → String
  | .text, r => r.text
  | .json, r => r.json

/-- How a run ends. -/
def conclude (r : Report) : Except Fault Unit :=
  if r.isSuccess then .ok () else .error (.casesFailed (r.count .failed) r.total)

section
variable {σ : Type} [Browser σ]

/-- Runs documents one at a time. -/
def runEach (config : RunConfig) : List String → Bench σ → Report × Bench σ
  | [], b => (⟨[]⟩, b)
  | p :: ps, b =>
    let (one, b) := Runner.runFiles config none [p] b
    let (rest, b) := runEach config ps b
    (⟨one.suites ++ rest.suites⟩, b)

/-- The documents to run: those that are named, else those in the directory if there are any. -/
def Selection.toRun (s : Selection) (f : Files) : List String :=
  if s.files.isEmpty then (Suite.discover f s.directory).toOption.getD [] else s.files

/-- Runs what is selected. Nothing is told about a run without documents. -/
def Selection.run (s : Selection) (config : RunConfig) (progress : Report.Progress) (b : Bench σ) :
    Except Failure Report × List String × Bench σ :=
  match s.toRun b.files with
  | [] =>
    let (r, b) := Runner.runDirectory config none s.directory b
    (r, [], b)
  | paths =>
    let (r, b) := runEach config paths b
    (.ok r, progress.lines r, b)

/-- Runs documents in a browser that is opened for it, and prints the report. -/
def RunOptions.perform (o : RunOptions) (launch : RunOptions → Except Fault σ)
    (around : Surroundings) (display : Display) (f : Files) : Outcome × Files :=
  match o.config around.starter around.join with
  | .error e => (.failed (.badArgument e), f)
  | .ok config =>
    match launch o with
    | .error e => (.failed e, f)
    | .ok session =>
      match o.selection.run config (display.progress around) ⟨session, f, around.supply, 1⟩ with
      | (.error e, told, b) => (⟨[], told, .error (.failure e)⟩, b.files)
      | (.ok r, told, b) =>
        let text := Text.trimEnd (o.selection.format.render r).toList
        (⟨[.ofList text], told, conclude r⟩, b.files)

end

/-! ## Checking -/

/-- The documents to check. -/
def Selection.documents (s : Selection) (f : Files) : Except Failure (List String) :=
  if !s.files.isEmpty then .ok s.files
  else
    match Suite.discover f s.directory with
    | .ok [] => if s.allowsNone then .ok [] else .error (.noDocuments s.directory)
    | .ok found => .ok found
    | .error e => if s.allowsNone then .ok [] else .error e

/-- The lines on a document that was checked. -/
def checkLines (progress : Report.Progress) (c : DocumentCheck) : List String :=
  if c.isOk then progress.success s!"{c.path} ({c.cases} cases)"
  else c.problems.flatMap fun problem => progress.failure s!"{c.path}: {problem.message}"

/-- How a check ends. -/
def concludeCheck (checks : List DocumentCheck) : Except Fault Unit :=
  let count := (checks.flatMap (·.problems)).length
  if count = 0 then .ok () else .error (.problemsFound count)

/-- Checks documents without a browser. -/
def Selection.check (s : Selection) (join : Joiner) (progress : Report.Progress) (f : Files) : Outcome :=
  match s.documents f with
  | .error e => .failed (.failure e)
  | .ok [] => ⟨[], progress.info s!"no documents in {s.directory}", .ok ()⟩
  | .ok paths =>
    let checks := DocumentCheck.ofPaths f join s.base? paths 1
    ⟨[], checks.flatMap (checkLines progress), concludeCheck checks⟩

/-! ## Making a project -/

/-- Writes the sample project and says what is new. -/
def makeProject (directory : String) (force quiet : Bool) (f : Files) : Outcome × Files :=
  match Sample.write directory force f with
  | (.error e, f) => (.failed (.io e), f)
  | (.ok written, f) =>
    let lines :=
      if written.isEmpty then [s!"Nothing to do in {directory} (use --force to overwrite)"]
      else
        let documents := Path.join directory "fixtures"
        (written.map ("Created: " ++ ·)) ++ [s!"Run \x60jsonwright run {documents}\x60 to try it"]
    (⟨if quiet then [] else lines, [], .ok ()⟩, f)

/-! ## Invocations -/

def Parameter.usage (p : Parameter) : String :=
  if p.takesValue then s!"[--{p.name} <{p.name}>]" else s!"[--{p.name}]"

/-- What may follow the name of a program or a command. -/
def Form.usage (f : Form) (name : String) : String :=
  " ".intercalate (name :: f.options.map Parameter.usage ++
    f.places.map (fun p => s!"[{p.name}]") ++
    (if f.commands.isEmpty then [] else ["<" ++ "|".intercalate f.commands ++ ">"]))

/-- How the program is used. -/
def usage : String :=
  "\n".intercalate [mainForm.usage "jsonwright", runForm.usage "jsonwright run",
    checkForm.usage "jsonwright check", initForm.usage "jsonwright init"]

def release : String := "0.3.0"

def Stop.message : Stop → String
  | .unknownArgument => "unexpected argument"
  | .invalidValue => "a value is missing or is not allowed"
  | .notNumber => "a value is not a number"
  | .repeated => "an argument cannot be used multiple times"
  | .unwantedValue => "unexpected value"
  | .unknownCommand => "unrecognized subcommand"
  | .noCommand => "a subcommand is missing"
  | .nothingGiven | .help => usage
  | .version title => s!"{title} {release}"

/-- Whether an answer was asked for; else the words are refused. -/
def Stop.isAnswer : Stop → Bool
  | .help | .version _ => true
  | _ => false

def Stop.exitCode (s : Stop) : Nat := if s.isAnswer then 0 else 2

/-- Carries out an invocation. -/
def Invocation.perform {σ : Type} [Browser σ] (i : Invocation)
    (launch : RunOptions → Except Fault σ) (around : Surroundings) (f : Files) : Outcome × Files :=
  match i.command with
  | .run o => o.perform launch around i.display f
  | .check s => (s.check around.join { i.display.progress around with verbose := false } f, f)
  | .init directory force => makeProject directory force i.display.verbosity.isQuiet f

end PageSpec.CommandLine
