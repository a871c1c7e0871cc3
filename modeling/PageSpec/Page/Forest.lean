import PageSpec.Text.Blank
import PageSpec.Text.Find
/-!
The elements of a page, numbered in document order: an element comes before its children, its
children before its later siblings, and the document it embeds after its children. A node knows its
parent and its document; children and descendants are read off the parents. What an interaction may
change is kept apart from everything else.
-/

/-! ## Elements -/

namespace PageSpec.Page

/-- The part of an element that no interaction changes. -/
structure Traits where
  /-- In small letters. -/
  tag : String
  id : Option String
  classes : List String
  /-- Attributes by name. -/
  attrs : List (String × String)
  /-- The text of the element itself, which comes before its children's. -/
  text : String
  hidden : Bool
  /-- Something lies over the element and takes its clicks. -/
  covered : Bool
  /-- Where a click on the element leads. -/
  navigatesTo : Option String
  deriving DecidableEq, Repr, Inhabited

/-- The part of an element that interactions change. -/
structure Input where
  value : String
  checked : Bool
  /-- The number of attached files. -/
  files : Nat
  deriving DecidableEq, Repr, Inhabited

/-- An element, the document it embeds and its children. -/
inductive Element where
  | mk (traits : Traits) (input : Input) (frame : Option (List Element)) (children : List Element)
  deriving Inhabited

namespace Traits

/-- An element of a tag, with nothing else to it. -/
def ofTag (tag : String) : Traits := ⟨Text.asciiLower tag, none, [], [], "", false, false, none⟩

/-- An attribute. The id is kept apart, and so are the classes if there are any. -/
def attr? (t : Traits) (name : String) : Option String :=
  if name = "id" then t.id
  else if name = "class" ∧ t.classes ≠ [] then some (" ".intercalate t.classes)
  else t.attrs.lookup name

/-- A box or a button of a group, by the attribute as it is written. -/
def isToggle (t : Traits) : Bool :=
  t.tag == "input" &&
    (t.attrs.lookup "type" == some "checkbox" || t.attrs.lookup "type" == some "radio")

end Traits

/-! ## Nodes -/

/-- An element by its place. -/
structure Node where
  traits : Traits
  parent : Option Nat
  /-- The number of the document it lies in; the page's own document has number 0. -/
  doc : Nat
  /-- The number of the document it embeds. -/
  content : Option Nat
  deriving DecidableEq, Repr

/-- All nodes of a page, in order. -/
structure Forest where
  nodes : List Node
  deriving DecidableEq, Repr, Inhabited

/-! ## Building -/

/-- Nodes placed so far, their inputs, and the number of the next document. -/
structure Planting where
  nodes : List Node
  inputs : List Input
  docs : Nat

mutual
/-- Places an element, what is below it, and then the document it embeds. -/
def plant (doc : Nat) (parent : Option Nat) : Element → Planting → Planting
  | .mk traits input frame children, p =>
    let here := p.nodes.length
    let inner := p.docs
    let content := if frame.isSome then some inner else none
    let p := { nodes := p.nodes ++ [⟨traits, parent, doc, content⟩], inputs := p.inputs ++ [input],
               docs := if frame.isSome then p.docs + 1 else p.docs }
    plantFrame inner frame (plantAll doc (some here) children p)
def plantAll (doc : Nat) (parent : Option Nat) : List Element → Planting → Planting
  | [], p => p
  | e :: es, p => plantAll doc parent es (plant doc parent e p)
def plantFrame (doc : Nat) : Option (List Element) → Planting → Planting
  | none, p => p
  | some es, p => plantAll doc none es p
end

namespace Forest

/-- The nodes of a document and of all documents inside, and their inputs. -/
def build (document : List Element) : Forest × List Input :=
  let p := plantAll 0 none document ⟨[], [], 1⟩
  (⟨p.nodes⟩, p.inputs)

/-! ## Views -/

def node? (f : Forest) (i : Nat) : Option Node := f.nodes[i]?
def parent? (f : Forest) (i : Nat) : Option Nat := (f.node? i).bind (·.parent)
/-- All places, in document order. -/
def places (f : Forest) : List Nat := List.range f.nodes.length

/-- The chain of parents, at most `n` of them, nearest first. -/
def climb (f : Forest) : Nat → Nat → List Nat
  | 0, _ => []
  | n + 1, i =>
    match f.parent? i with
    | some p => p :: climb f n p
    | none => []

/-- The proper ancestors, nearest first. A parent stands before its child, so there are at most as
many as the place says. -/
def ancestors (f : Forest) (i : Nat) : List Nat := f.climb i i

/-- The proper descendants, in document order. -/
def descendants (f : Forest) (i : Nat) : List Nat :=
  f.places.filter fun j => (f.ancestors j).contains i

/-- The children, in document order. -/
def children (f : Forest) (i : Nat) : List Nat := f.places.filter fun j => f.parent? j == some i

/-- The elements of a document, in document order. -/
def document (f : Forest) (d : Nat) : List Nat :=
  f.places.filter fun j => (f.node? j).any (·.doc == d)

/-- The elements of a document that have no parent. -/
def tops (f : Forest) (d : Nat) : List Nat :=
  (f.document d).filter fun j => (f.parent? j).isNone

def ownText (f : Forest) (i : Nat) : String := ((f.node? i).map (·.traits.text)).getD ""
/-- The text of an element and of everything below it. -/
def text (f : Forest) (i : Nat) : String := String.join ((i :: f.descendants i).map f.ownText)
/-- The text with its blanks collapsed, as it is compared. -/
def plainText (f : Forest) (i : Nat) : String := Text.collapse (f.text i)

def hidden (f : Forest) (i : Nat) : Bool := (f.node? i).any (·.traits.hidden)
/-- Neither the element nor anything around it in its document is hidden. -/
def visible (f : Forest) (i : Nat) : Bool := (i :: f.ancestors i).all (!f.hidden ·)

/-- The text of a document, with its blanks collapsed. -/
def documentText (f : Forest) (d : Nat) : String :=
  Text.collapse (" ".intercalate ((f.tops d).map f.text))

end Forest
end PageSpec.Page
