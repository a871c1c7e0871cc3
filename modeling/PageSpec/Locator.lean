import PageSpec.Target
import PageSpec.Text.Quoted
/-!
Locators: lazy descriptions of where elements live. A locator is a chain of steps from the page; it
is resolved only when a session counts the elements or acts on one of them.
-/
namespace PageSpec

/-- One step of a locator. -/
inductive Step where
  /-- Into the document of the matching frame elements. -/
  | frame (selector : String)
  /-- Descendants that match a selector. -/
  | css (selector : String)
  /-- Descendants whose visible text is exactly this. -/
  | text (text : String)
  /-- Descendants of a tag whose visible text contains a text. -/
  | tagText (tag text : String)
  /-- The parent of every match. -/
  | parent
  | first
  | last
  /-- One match by position; negative positions count from the end. -/
  | nth (index : Int)
  deriving DecidableEq, Repr

/-- A chain of steps; the empty one is the page. -/
structure Locator where
  steps : List Step
  deriving DecidableEq, Repr, Inhabited

/-- How several matches are narrowed to one. -/
inductive Pick where
  | first
  | last
  | nth (index : Int)
  deriving DecidableEq, Repr

def Step.describe : Step → String
  | .frame s => s!"frame={Text.quote s}"
  | .css s => s!"css={Text.quote s}"
  | .text t => s!"text={Text.quote t}"
  | .tagText tag part => s!"{tag}:has-text({Text.quote part})"
  | .parent => ".."
  | .first => "first"
  | .last => "last"
  | .nth n => s!"nth={n}"

namespace Locator

/-- The page itself. -/
def page : Locator := ⟨[]⟩
def isPage (l : Locator) : Bool := l.steps.isEmpty
/-- The locator with one more step. -/
def add (l : Locator) (s : Step) : Locator := ⟨l.steps ++ [s]⟩
def css (l : Locator) (selector : String) : Locator := l.add (.css selector)
def text (l : Locator) (t : String) : Locator := l.add (.text t)
/-- The step that a classified target stands for. -/
def target (l : Locator) : Target → Locator
  | .selector s => l.css s
  | .text t => l.text t
  | .tagText tag part => l.add (.tagText tag part)
def pick (l : Locator) : Pick → Locator
  | .first => l.add .first
  | .last => l.add .last
  | .nth n => l.add (.nth n)

/-- The chain as prose. -/
def describe (l : Locator) : String :=
  if l.steps.isEmpty then "page" else " >> ".intercalate (l.steps.map Step.describe)

end Locator
end PageSpec
