import PageSpec.Browser.Expect
import PageSpec.Browser.Locate
import PageSpec.Action.Reading
import PageSpec.Bag
import PageSpec.Dynamic.Resolver
import PageSpec.Functions.Bag
/-!
The setting in which actions run: what stays the same for a case, and the state that actions change.
What an action has changed before it fails stays changed.
-/
namespace PageSpec

/-- The texts typed and read last. -/
structure Memo where
  typed : Option String
  got : Option String
  deriving DecidableEq, Repr, Inhabited

def Memo.empty : Memo := ⟨none, none⟩

/-- Times in milliseconds. -/
structure Settings where
  /-- The pause between characters that are typed slowly. -/
  slowDelay : Nat
  /-- For expectations without a time of their own. -/
  patience : Patience
  requestTimeout : Nat
  responseTimeout : Nat
  deriving DecidableEq, Repr

def Settings.default : Settings := ⟨300, .default, 50000, 30000⟩

/-- What stays the same while the actions of a case run. -/
structure Setting where
  settings : Settings
  options : Dynamic.Options
  functions : Option FunctionBag
  /-- How the programs of functions are started. -/
  starter : Functions.Starter
  context : Option ScenarioContext
  /-- Where relative paths of uploads start. -/
  directory : String

/-- What actions change. -/
structure Run (σ : Type) where
  session : σ
  bag : Bag
  memo : Memo
  source : Dynamic.Source
  files : Files

/-- A run in which nothing has happened yet. -/
def Run.fresh {σ : Type} (session : σ) (source : Dynamic.Source) (files : Files) : Run σ :=
  ⟨session, .empty, .empty, source, files⟩

/-- A computation on a run. -/
abbrev Exec (σ : Type) := ExceptT Failure (StateM (Run σ))

namespace Exec
variable {σ α : Type}

def lift (r : Except Failure α) : Exec σ α := ExceptT.mk (pure r)

/-- A computation on the session alone. -/
def onSession (a : Act σ α) : Exec σ α := fun r =>
  let (x, s) := a.run r.session
  (x, { r with session := s })

/-- A computation on the source of dynamic texts alone. -/
def onSource (a : Dynamic.Drawing α) : Exec σ α := fun r =>
  let (x, s) := a.run r.source
  (x, { r with source := s })

def store (key : String) (v : Json) : Exec σ Unit := modify fun r => { r with bag := r.bag.set key v }

/-- Runs a computation from the present memo, which is put back afterwards whatever happens. -/
def keepingMemo (a : Exec σ α) : Exec σ α := fun r =>
  let (x, r') := a r
  (x, { r' with memo := r.memo })

/-- Does something with what is there. -/
def forSome (o : Option α) (f : α → Exec σ Unit) : Exec σ Unit :=
  match o with
  | some a => f a
  | none => pure ()

end Exec

/-- A text without its outer blanks, unless nothing is left. -/
def nonBlank? (s : String) : Option String :=
  let t := Text.trim s
  if t = "" then none else some t

/-- Where an action looks for its targets, and which matches it means. -/
structure Aim where
  scope : Locator
  hints : HintView

namespace Aim
variable {σ : Type} [Browser σ]

/-- The one element that a target means. -/
def one (a : Aim) (target : String) : Exec σ Locator := .onSession (locate a.scope target a.hints)

end Aim

/-- Keys of the bag that operations write. -/
def resultKey : String := "resultFunc"
def typedKey : String := "lastTypedText"
def gotKey : String := "lastGetText"

end PageSpec
