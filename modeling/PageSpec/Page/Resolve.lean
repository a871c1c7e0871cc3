import PageSpec.Locator
import PageSpec.Page.Forest
import PageSpec.Page.Selector
import PageSpec.Text.Letters
/-!
Resolving locators on a page in memory. A chain of steps narrows a scope, which is a list of whole
documents at first and after every step into a frame, and a list of elements otherwise. Searches
stay inside the documents of their scope.
-/
namespace PageSpec.Page

/-! ## Selectors on nodes -/

/-- Whether an element meets every condition of a compound. -/
def Compound.admits (c : Compound) (t : Traits) : Bool :=
  c.tag.all (t.tag == ·) && c.id.all (t.id == some ·) && c.classes.all t.classes.contains &&
    c.attrs.all fun (name, wanted) =>
      match t.attr? name with
      | some actual => wanted.all (actual == ·)
      | none => false

/-- Whether the last compound admits a node and the others admit nodes above it as the combinators
say. -/
def Chain.admits (f : Forest) : Chain → Nat → Bool
  | .one c, i => (f.node? i).any (c.admits ·.traits)
  | .link left k c, i =>
    (f.node? i).any (c.admits ·.traits) &&
      match k with
      | .child => (f.parent? i).any (left.admits f)
      | .descendant => (f.ancestors i).any (left.admits f)

/-- Whether a node matches one of the groups of a selector. -/
def selected (f : Forest) (groups : List Chain) (i : Nat) : Bool := groups.any (·.admits f i)

/-! ## Scopes -/

/-- Where a search takes place. -/
inductive Scope where
  | documents (numbers : List Nat)
  | elements (places : List Nat)
  deriving DecidableEq, Repr

namespace Scope

/-- Whether a search in the scope looks at a place: elements are searched below, not themselves. -/
def covers (f : Forest) : Scope → Nat → Bool
  | .documents ds, i => (f.node? i).any (ds.contains ·.doc)
  | .elements es, i => es.any (f.ancestors i).contains

/-- The elements a scope stands for; a document stands for its first element. -/
def matched (f : Forest) : Scope → List Nat
  | .documents ds => ds.filterMap fun d => (f.tops d).head?
  | .elements es => es

/-- The places that a search looks at and a condition holds for, in document order. -/
def search (f : Forest) (s : Scope) (keep : Nat → Bool) : List Nat :=
  f.places.filter fun i => s.covers f i && keep i

/-- The places that a search looks at, document by document or element by element. Elements may lie
in one another, so a place can be looked at more than once. -/
def candidates (f : Forest) : Scope → List (List Nat)
  | .documents ds => ds.map f.document
  | .elements es => es.map f.descendants

end Scope

/-- Why a locator cannot be resolved: a text in it is no selector. -/
structure BadSelector where
  text : String
  error : SelectorError
  deriving DecidableEq, Repr

/-- The elements in a scope that match a selector text. -/
def select (f : Forest) (s : Scope) (selector : String) : Except BadSelector (List Nat) :=
  match parseSelector selector with
  | .ok groups => .ok (s.search f (selected f groups))
  | .error e => .error ⟨selector, e⟩

/-- Of some places, those with a text that do not hold another one of them with the same text. -/
def deepest (f : Forest) (t : String) (places : List Nat) : List Nat :=
  let hits := places.filter (f.plainText · == t)
  hits.filter fun e => !hits.any fun o => o != e && (f.ancestors o).contains e

/-- The elements of a scope with a text, the deepest ones in each of its parts. -/
def withText (f : Forest) (s : Scope) (t : String) : List Nat :=
  let found := (s.candidates f).flatMap (deepest f t)
  f.places.filter found.contains

/-- One of some places by position; negative positions count from the end. -/
def nth (places : List Nat) (n : Int) : List Nat :=
  let at_ := if n < 0 then places.length + n else n
  if 0 ≤ at_ then (places[at_.toNat]?).toList else []

/-- The scope after one more step. -/
def step (f : Forest) (s : Scope) : Step → Except BadSelector Scope
  | .frame selector => do
    let frames ← select f s selector
    return .documents (frames.filterMap fun i => (f.node? i).bind (·.content))
  | .css selector => return .elements (← select f s selector)
  | .text t => return .elements (withText f s t)
  | .tagText tag part => do
    let tagged ← select f s tag
    let needle := Text.lower part
    return .elements (tagged.filter fun i => Text.has (Text.lower (f.plainText i)) needle)
  | .parent =>
    let parents := (s.matched f).filterMap f.parent?
    return .elements (f.places.filter parents.contains)
  | .first => return .elements ((s.matched f).take 1)
  | .last => return .elements (s.matched f).getLast?.toList
  | .nth n => return .elements (nth (s.matched f) n)

/-- The scope that a chain of steps leads to from the page. -/
def scopeOf (f : Forest) (l : Locator) : Except BadSelector Scope :=
  l.steps.foldlM (step f) (.documents [0])

/-- The elements that a locator stands for. -/
def resolve (f : Forest) (l : Locator) : Except BadSelector (List Nat) :=
  return (← scopeOf f l).matched f

end PageSpec.Page
