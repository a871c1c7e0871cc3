import PageSpec.Runner.Basic
/-!
Checking suites without a browser: every address that does not depend on variables has to resolve,
and every action without tokens has to be readable.
-/
namespace PageSpec

mutual
/-- Whether a text inside a value may hold a token. -/
def hasToken : Json → Bool
  | .str s => s.toList.contains '{'
  | .arr xs => hasTokenItems xs
  | .obj fs => hasTokenFields fs
  | _ => false
def hasTokenItems : List Json → Bool
  | [] => false
  | x :: xs => hasToken x || hasTokenItems xs
def hasTokenFields : List (String × Json) → Bool
  | [] => false
  | (_, v) :: fs => hasToken v || hasTokenFields fs
end

namespace SuiteCase

/-- The problem of an address that needs no variables. -/
def addressProblem (c : SuiteCase) (join : Joiner) (base : Option String) : Option Failure :=
  if c.writtenUrl.any fun u => u.toList.contains '{' then none
  else
    match c.address join .empty base with
    | .ok _ => none
    | .error e => some e

/-- The problem of an action by its number from 1. -/
def actionProblem (c : SuiteCase) (number : Nat) (raw : Json) : Option Failure :=
  if hasToken raw then none
  else
    match Action.ofJson raw with
    | .ok _ => none
    | .error m => some (.invalidDocument c.source (.action c.key number m))

/-- The problems of a case: its address, and then its actions. -/
def problems (c : SuiteCase) (join : Joiner) (base : Option String) : List Failure :=
  (c.addressProblem join base).toList ++
    (c.scenario.actions.zipIdx.filterMap fun (raw, i) => c.actionProblem (i + 1) raw)

end SuiteCase

namespace Suite

/-- The problems of a suite, case by case. -/
def problems (s : Suite) (join : Joiner) (base : Option String) : List Failure :=
  (s.before ++ s.cases).flatMap (·.problems join base)

end Suite

/-- What was found in a document. -/
structure DocumentCheck where
  path : String
  /-- The number of its own cases; none if it cannot be loaded. -/
  cases : Nat
  problems : List Failure

namespace DocumentCheck

def isOk (c : DocumentCheck) : Bool := c.problems.isEmpty

/-- Checks the document at a path; `n` is the number of the next untitled suite. -/
def ofPath (files : Files) (join : Joiner) (base : Option String) (path : String) (n : Nat) :
    DocumentCheck × Nat :=
  match Suite.load files path n with
  | (.ok s, n) => (⟨path, s.cases.length, s.problems join base⟩, n)
  | (.error e, n) => (⟨path, 0, [e]⟩, n)

/-- Checks documents in order. -/
def ofPaths (files : Files) (join : Joiner) (base : Option String) :
    List String → Nat → List DocumentCheck
  | [], _ => []
  | p :: ps, n =>
    let (c, n) := ofPath files join base p n
    c :: ofPaths files join base ps n

end DocumentCheck
end PageSpec
