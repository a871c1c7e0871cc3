import PageSpec.CommandLine.Grammar
import PageSpec.Runner.Basic
/-!
Invocations of the program: `run`, `check` and `init`, with their options. Options on what is
printed may stand before and after the name of a command; the ones after it count.
-/
namespace PageSpec.CommandLine

/-! ## What is printed -/

inductive Verbosity where
  | quiet | normal | verbose | debug
  deriving DecidableEq, Repr

namespace Verbosity

/-- Being quiet wins over any number of wishes for more. -/
def ofWishes (quiet : Bool) (more : Nat) : Verbosity :=
  match quiet, more with
  | true, _ => .quiet
  | false, 0 => .normal
  | false, 1 => .verbose
  | false, _ => .debug

def isQuiet (v : Verbosity) : Bool := v == .quiet
def isVerbose (v : Verbosity) : Bool := v == .verbose || v == .debug

/-- The level from which events are logged. -/
def logLevel : Verbosity → String
  | .quiet => "error"
  | .normal => "warn"
  | .verbose => "info"
  | .debug => "debug"

def name : Verbosity → String
  | .quiet => "Quiet"
  | .normal => "Normal"
  | .verbose => "Verbose"
  | .debug => "Debug"

end Verbosity

/-- When lines have signs and colours. -/
inductive Decoration where
  | always | auto | never
  deriving DecidableEq, Repr

/-- Whether lines are decorated, on a terminal or elsewhere. -/
def Decoration.applies (terminal : Bool) : Decoration → Bool
  | .always => true
  | .auto => terminal
  | .never => false

def Decoration.name : Decoration → String
  | .always => "Always"
  | .auto => "Auto"
  | .never => "Never"

/-- How reports and logs are written. -/
inductive Format where
  | text | json
  deriving DecidableEq, Repr

def Format.ofWord (w : String) : Format := if w = "json" then .json else .text

def Format.name : Format → String
  | .text => "Text"
  | .json => "Json"

structure Display where
  verbosity : Verbosity
  decoration : Decoration
  logs : Format
  deriving DecidableEq, Repr

def Display.toJson (d : Display) : Json :=
  .obj [("verbosity", .str d.verbosity.name), ("color", .str d.decoration.name),
    ("log_format", .str d.logs.name)]

/-! ## Commands -/

/-- Which documents are meant, and where their pages are. -/
structure Selection where
  directory : String
  /-- If there are any, they are meant in place of the directory. -/
  files : List String
  baseUrl : Option String
  baseUrlOverride : Option String
  allowsNone : Bool
  format : Format
  deriving DecidableEq, Repr

/-- The base that URLs are joined onto. -/
def Selection.base? (s : Selection) : Option String := effectiveBase s.baseUrlOverride s.baseUrl

structure RunOptions where
  selection : Selection
  functions : Option String
  projectRoot : String
  locale : String
  utc : Bool
  seed : Option Nat
  /-- The browser to start. -/
  browser : Option String
  headed : Bool
  noSandbox : Bool
  expectTimeout : Nat
  slowDelay : Nat
  deriving DecidableEq, Repr

/-- How documents are run. The clock goes on. -/
def RunOptions.config (o : RunOptions) (starter : Functions.Starter) (join : Joiner) :
    Except Failure RunConfig := do
  let locale ← Dynamic.Locale.parse o.locale
  return {
    baseUrl := o.selection.baseUrl, baseUrlOverride := o.selection.baseUrlOverride
    functionsPath := o.functions, projectRoot := o.projectRoot
    allowsNone := o.selection.allowsNone, slowDelay := o.slowDelay, expectTimeout := o.expectTimeout
    options := { locale := locale, utc := o.utc, seed := o.seed.map .ofNat, now := none }
    starter := starter, join := join }

inductive Command where
  | run (options : RunOptions)
  | check (selection : Selection)
  /-- Writes a sample project into a directory. -/
  | init (directory : String) (force : Bool)
  deriving DecidableEq, Repr

structure Invocation where
  display : Display
  command : Command
  deriving DecidableEq, Repr

/-! ## Forms -/

private def option (name : String) (use : Use) : Parameter := ⟨name, none, use, none⟩
private def backed (name : String) (use : Use) (standIn : String) : Parameter :=
  ⟨name, none, use, some standIn⟩

def displayOptions : List Parameter :=
  [⟨"verbose", some 'v', .count, none⟩, ⟨"quiet", some 'q', .switch, none⟩,
    option "color" (.one (.oneOf ["auto", "always", "never"])),
    option "log-format" (.one (.oneOf ["text", "json"])),
    ⟨"help", some 'h', .help, none⟩, ⟨"version", some 'V', .version, none⟩]

def selectionOptions : List Parameter :=
  [⟨"file", some 'f', .many .path, none⟩,
    backed "base-url" (.one .text) "JSONWRIGHT_BASE_URL",
    backed "base-url-override" (.one .text) "JSONWRIGHT_BASE_URL_OVERRIDE",
    backed "allow-noop" .switch "JSONWRIGHT_ALLOW_NOOP",
    option "format" (.one (.oneOf ["text", "json"]))]

def runOptions : List Parameter :=
  [backed "functions" (.one .path) "JSONWRIGHT_FUNCTIONS", option "project-root" (.one .path),
    backed "locale" (.one .text) "JSONWRIGHT_LOCALE", option "utc" .switch,
    backed "seed" (.one .number) "JSONWRIGHT_SEED", backed "chrome" (.one .path) "CHROME_PATH",
    option "headed" .switch, option "no-sandbox" .switch, option "expect-timeout" (.one .number),
    option "slow-type-delay" (.one .number)]

private def command (name : String) (options : List Parameter) (place : String) : Form :=
  { title := "jsonwright-" ++ name, options := options ++ displayOptions
    places := [option place (.one .path)], commands := [] }

def runForm : Form := command "run" (selectionOptions ++ runOptions) "dir"
def checkForm : Form := command "check" selectionOptions "dir"
def initForm : Form := command "init" [option "force" .switch] "path"

def mainForm : Form :=
  { title := "jsonwright", options := displayOptions, places := []
    commands := ["run", "check", "init", "help"] }

/-! ## From what is given to invocations -/

def Display.ofGiven (g : Given) : Display where
  verbosity := .ofWishes (g.isOn "quiet") (g.count "verbose")
  decoration :=
    match g.first? "color" with
    | some "always" => .always
    | some "never" => .never
    | _ => .auto
  logs := .ofWord ((g.first? "log-format").getD "text")

def Selection.ofGiven (g : Given) : Selection where
  directory := (g.first? "dir").getD "fixtures"
  files := g.all "file"
  baseUrl := g.first? "base-url"
  baseUrlOverride := g.first? "base-url-override"
  allowsNone := g.isOn "allow-noop"
  format := .ofWord ((g.first? "format").getD "text")

def RunOptions.ofGiven (g : Given) : RunOptions where
  selection := .ofGiven g
  functions := g.first? "functions"
  projectRoot := (g.first? "project-root").getD "."
  locale := (g.first? "locale").getD "pt-BR"
  utc := g.isOn "utc"
  seed := (g.first? "seed").bind number?
  browser := g.first? "chrome"
  headed := g.isOn "headed"
  noSandbox := g.isOn "no-sandbox"
  expectTimeout := ((g.first? "expect-timeout").bind number?).getD 5000
  slowDelay := ((g.first? "slow-type-delay").bind number?).getD 300

/-- What the words after `help` ask for: the program or one command. -/
def helpOn : List String → Stop
  | [] => .help
  | [name] => if mainForm.commands.contains name then .help else .unknownCommand
  | _ => .unknownCommand

namespace Invocation

/-- The invocation of a command, with what is given before its name. -/
private def ofCommand (env : String → Option String) (f : Form) (make : Given → Command)
    (words : List String) (before : Reading) : Except Stop Invocation := do
  let (r, _) ← f.read f.start words
  let given ← f.finish env r
  let outer ← mainForm.finish env before
  return ⟨.ofGiven (given.above outer), make given⟩

/-- The invocation that words make. What is wrong after the name of a command is told before what
is wrong ahead of it. -/
def ofWords (env : String → Option String) (words : List String) : Except Stop Invocation := do
  match ← mainForm.read mainForm.start words with
  | (r, some ("run", rest)) => ofCommand env runForm (fun g => .run (.ofGiven g)) rest r
  | (r, some ("check", rest)) => ofCommand env checkForm (fun g => .check (.ofGiven g)) rest r
  | (r, some ("init", rest)) =>
    ofCommand env initForm (fun g => .init ((g.first? "path").getD ".") (g.isOn "force")) rest r
  | (_, some (_, rest)) => throw (helpOn rest)
  | (r, none) =>
    let given ← mainForm.finish env r
    throw (if given.isEmpty then .nothingGiven else .noCommand)

end Invocation
end PageSpec.CommandLine
