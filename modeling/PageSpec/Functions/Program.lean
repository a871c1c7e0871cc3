import PageSpec.Files.Basic
/-!
Programs that functions start. They write to two streams, may leave other files behind, and end with a
code or by a signal. What programs there are is not for functions to say.
-/
namespace PageSpec.Functions

/-- How a program ends. -/
inductive Ending where
  | code (n : Nat)
  /-- Killed for good. -/
  | killed
  deriving DecidableEq, Repr

def Ending.describe : Ending → String
  | .code n => s!"exit status: {n}"
  | .killed => "signal: 9 (SIGKILL)"

/-- What a program leaves behind. -/
structure Outcome where
  out : List UInt8
  err : List UInt8
  ending : Ending
  files : Files

/-- How programs are started: what a program comes to among some files, with its arguments and in a
directory if one is given. A program that is not there cannot be started. -/
abbrev Starter := Files → String → List String → Option String → Except IoFault Outcome

/-- Where there are no programs, none is started. -/
def noPrograms : Starter := fun _ _ _ _ => .error .notFound

end PageSpec.Functions
