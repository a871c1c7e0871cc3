import PageSpec.Json.Value
import PageSpec.Failure
/-!
Reports: what became of every case of every document. A run is a success when no case failed.
-/
namespace PageSpec

/-- What became of a case. -/
inductive Verdict where
  | passed | failed | skipped
  deriving DecidableEq, Repr

def Verdict.word : Verdict → String
  | .passed => "passed"
  | .failed => "failed"
  | .skipped => "skipped"

/-- The result of one case. -/
structure CaseResult where
  key : String
  title : String
  verdict : Verdict
  /-- How long it took, in milliseconds. -/
  millis : Nat
  error : Option String
  deriving DecidableEq, Repr

namespace CaseResult

def pass (key title : String) : CaseResult := ⟨key, title, .passed, 0, none⟩
def fail (key title error : String) : CaseResult := ⟨key, title, .failed, 0, some error⟩
def skip (key title : String) : CaseResult := ⟨key, title, .skipped, 0, none⟩

def toJson (r : CaseResult) : Json :=
  .obj ([("key", .str r.key), ("title", .str r.title), ("status", .str r.verdict.word),
    ("durationMs", .int r.millis)] ++ (r.error.map fun e => ("error", Json.str e)).toList)

end CaseResult

/-- The results of one document. -/
structure SuiteReport where
  title : String
  path : String
  cases : List CaseResult
  millis : Nat
  deriving DecidableEq, Repr

namespace SuiteReport

/-- A document that could not be made ready. -/
def notReady (title path : String) (e : Failure) : SuiteReport :=
  ⟨title, path, [.fail "setup" "suite setup" e.message], 0⟩

/-- A document without cases. -/
def noCases (title path : String) : SuiteReport :=
  ⟨title, path, [.skip "noop" s!"{title}: no cases"], 0⟩

def count (s : SuiteReport) (v : Verdict) : Nat := s.cases.countP (·.verdict = v)
def isSuccess (s : SuiteReport) : Bool := s.count .failed == 0

def toJson (s : SuiteReport) : Json :=
  .obj [("title", .str s.title), ("path", .str s.path), ("cases", .arr (s.cases.map CaseResult.toJson)),
    ("durationMs", .int s.millis)]

end SuiteReport

/-- The results of a run. -/
structure Report where
  suites : List SuiteReport
  deriving DecidableEq, Repr

namespace Report

/-- The title of the report of a run without documents. -/
def emptyTitle : String := "No specification documents"

/-- The report of a run that was allowed to find no documents. -/
def empty : Report := ⟨[⟨emptyTitle, "", [.skip "noop" emptyTitle], 0⟩]⟩

/-- All cases, suite by suite. -/
def cases (r : Report) : List CaseResult := r.suites.flatMap (·.cases)

def count (r : Report) (v : Verdict) : Nat := r.cases.countP (·.verdict = v)
/-- The number of all cases. -/
def total (r : Report) : Nat := r.cases.length
def millis (r : Report) : Nat := r.suites.foldl (fun n s => n + s.millis) 0
def isSuccess (r : Report) : Bool := r.suites.all (·.isSuccess)

/-- The results alone. -/
def toJson (r : Report) : Json := .obj [("suites", .arr (r.suites.map SuiteReport.toJson))]

end Report
end PageSpec
