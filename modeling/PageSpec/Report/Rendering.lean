import PageSpec.Decimal.Layout
import PageSpec.Json.Printer
import PageSpec.Report.Basic
/-!
How reports are written: as text for people, or as JSON; and the lines that accompany a run, one for
each case that is shown and one for each message. Colours stand in escape codes, which only a terminal,
or whoever insists, gets to see.
-/
namespace PageSpec.Report

/-! ## Colours -/

inductive Colour where
  | red | green | yellow | blue
  deriving DecidableEq, Repr

def Colour.code : Colour → String
  | .red => "31"
  | .green => "32"
  | .yellow => "33"
  | .blue => "34"

/-- A text in a colour, possibly bold, if escape codes are wanted. -/
def painted (escapes : Bool) (c : Colour) (bold : Bool) (text : String) : String :=
  if escapes then s!"\x1b[{c.code}m" ++ (if bold then "\x1b[1m" else "") ++ text ++ "\x1b[0m"
  else text

/-! ## Summaries -/

/-- How lines are decorated: signs in place of words, and escape codes around them. -/
structure Style where
  signs : Bool
  escapes : Bool
  deriving DecidableEq, Repr

def Style.plain : Style := ⟨false, false⟩

/-- One line on a whole run. -/
def summary (style : Style) (r : Report) : String :=
  let passed := r.count .passed
  let failed := r.count .failed
  let skipped := r.count .skipped
  let escapes := style.signs && style.escapes
  let status :=
    if failed > 0 then painted escapes .red true "FAILED" else painted escapes .green true "PASSED"
  let p := painted escapes .green true (toString passed)
  let f := if failed > 0 then painted escapes .red true (toString failed) else toString failed
  let s := painted escapes .yellow false (toString skipped)
  s!"{status} {passed + failed + skipped} cases in {Decimal.fixed 2 (Decimal.seconds r.millis)}s " ++
    s!"({p} passed, {f} failed, {s} skipped)"

/-! ## Reports -/

def mark : Verdict → String
  | .passed => "ok"
  | .failed => "FAILED"
  | .skipped => "skipped"

def caseText (c : CaseResult) : String :=
  s!"  {c.title} ... {mark c.verdict}" ++
    (match c.error with
    | some e => s!"\n      {e}"
    | none => "") ++ "\n"

def suiteText (s : SuiteReport) : String :=
  s!"{s.title} [{s.path}]\n" ++ String.join (s.cases.map caseText)

/-- The report as text. -/
def text (r : Report) : String :=
  String.join (r.suites.map suiteText) ++ summary .plain r ++ "\n"

/-- The report with its totals. -/
def document (r : Report) : Json :=
  .obj [("success", .bool r.isSuccess), ("passed", .int (r.count .passed)),
    ("failed", .int (r.count .failed)), ("skipped", .int (r.count .skipped)),
    ("suites", .arr (r.suites.map SuiteReport.toJson))]

/-- The report as JSON. -/
def json (r : Report) : String := Json.pretty r.document

/-! ## Lines that accompany a run -/

/-- How much is shown, and how. -/
structure Progress where
  style : Style
  quiet : Bool
  /-- Shows passed cases too. -/
  verbose : Bool
  deriving DecidableEq, Repr

namespace Progress

/-- Whether a case with a verdict gets a line of its own. -/
def shows (p : Progress) : Verdict → Bool
  | .passed => p.verbose && !p.quiet
  | .skipped => !p.quiet
  | .failed => true

/-- A message under a sign or a word. -/
private def labelled (p : Progress) (c : Colour) (sign word message : String) : String :=
  (if p.style.signs then painted p.style.escapes c true sign else word) ++ " " ++ message

/-- Failures are told to the quiet as well. -/
def failure (p : Progress) (message : String) : List String := [labelled p .red "✗" "FAIL" message]
def success (p : Progress) (message : String) : List String :=
  if p.quiet then [] else [labelled p .green "✓" "PASS" message]
def warning (p : Progress) (message : String) : List String :=
  if p.quiet then [] else [labelled p .yellow "⚠" "WARN" message]
def info (p : Progress) (message : String) : List String :=
  if p.quiet then [] else [labelled p .blue "ℹ" "INFO" message]

/-- The lines of a case. -/
def caseLines (p : Progress) (c : CaseResult) : List String :=
  if !p.shows c.verdict then []
  else
    let label := s!"{c.title} ({c.millis}ms)"
    let error := c.error.getD "failed"
    match c.verdict with
    | .passed => p.success label
    | .skipped => p.warning s!"{label} skipped"
    | .failed => p.failure s!"{label}: {error}"

/-- The lines at the end of a run: an empty one and the summary. -/
def summaryLines (p : Progress) (r : Report) : List String :=
  if p.quiet && r.count .failed == 0 then [] else ["", summary p.style r]

/-- All lines of a run. -/
def lines (p : Progress) (r : Report) : List String :=
  r.cases.flatMap p.caseLines ++ p.summaryLines r

end Progress
end PageSpec.Report
