import PageSpec.Failure
import PageSpec.Json.Decoder
/-!
Locator hints: which of several matches is meant and where to look. A case may set hints, and an
action may override them one by one; frames are overridden as a whole.
-/
namespace PageSpec

/-- The deepest climb from a parent anchor. -/
def maxClimb : Nat := 256

/-- Hints of a case or of an action. -/
structure Hints where
  /-- A position from 0; negative positions count from the end. -/
  nth : Option Int
  first : Option Bool
  last : Option Bool
  /-- Narrows the scope last. -/
  within : Option String
  frame : Option (OneOrMany String)
  /-- Another word for `frame`. -/
  iframe : Option (OneOrMany String)
  /-- Narrows the scope to a subtree. -/
  root : Option String
  /-- A target whose ancestor becomes the scope. -/
  parent : Option String
  /-- How many levels to climb from `parent`. -/
  index : Option Binary64
  deriving DecidableEq, Repr, Inhabited

namespace Hints

def none : Hints :=
  ⟨.none, .none, .none, .none, .none, .none, .none, .none, .none⟩

/-- The fields of hints, in the order of their listing. -/
def slots : List (Decoder.Slot Hints) :=
  let text := Decoder.optional Decoder.string
  let frames := Decoder.optional (OneOrMany.decode Decoder.string)
  [ .of "nth" (Decoder.optional Decoder.int64) fun v h => { h with nth := v },
    .of "first" (Decoder.optional Decoder.bool) fun v h => { h with first := v },
    .of "last" (Decoder.optional Decoder.bool) fun v h => { h with last := v },
    .of "within" text fun v h => { h with within := v },
    .of "frame" frames fun v h => { h with frame := v },
    .of "iframe" frames fun v h => { h with iframe := v },
    .of "root" text fun v h => { h with root := v },
    .of "parent" text fun v h => { h with parent := v },
    .of "index" (Decoder.optional Decoder.double) fun v h => { h with index := v } ]

def decode : Decoder Hints := Decoder.record "LocatorContext" slots none

/-- The hints that are there, as fields. -/
def toFields (h : Hints) : Fields :=
  let add (name : String) (v : Option Json) : Fields := (v.map fun j => (name, j)).toList
  add "nth" (h.nth.map .int) ++ add "first" (h.first.map .bool) ++ add "last" (h.last.map .bool) ++
    add "within" (h.within.map .str) ++ add "frame" (h.frame.map (·.toJson .str)) ++
    add "iframe" (h.iframe.map (·.toJson .str)) ++ add "root" (h.root.map .str) ++
    add "parent" (h.parent.map .str) ++ add "index" (h.index.map .float)

end Hints

/-- The hints of an action over those of its case. -/
structure HintView where
  action : Hints
  case_ : Option Hints
  deriving DecidableEq, Repr

namespace HintView

/-- The action's hint, or else the case's. -/
def effective {α : Type} (v : HintView) (get : Hints → Option α) : Option α :=
  (get v.action).or (v.case_.bind get)

def nth (v : HintView) : Option Int := v.effective (·.nth)
def first (v : HintView) : Bool := (v.effective (·.first)).getD false
def last (v : HintView) : Bool := (v.effective (·.last)).getD false
def within (v : HintView) : Option String := v.effective (·.within)
def root (v : HintView) : Option String := v.effective (·.root)
def parent (v : HintView) : Option String := v.effective (·.parent)
/-- The chain of frames; `frame` comes before `iframe`. -/
def frames (v : HintView) : List String :=
  ((v.effective fun h => h.frame.or h.iframe).map OneOrMany.toList).getD []

/-- How many levels to climb: the whole part of the index, at least one. -/
def climb (v : HintView) : Except Failure Nat :=
  match v.effective (·.index) with
  | some x =>
    if x.exceeds maxClimb then .error (.mistake (.climbTooFar x maxClimb))
    else .ok (max 1 x.truncated.toNat)
  | none => .ok 1

/-- Which match is meant; a position excludes `first` and `last`. -/
def pick (v : HintView) : Except Failure Pick :=
  match v.nth with
  | some n => if v.first || v.last then .error .invalidIndex else .ok (.nth n)
  | none => .ok (if v.last then .last else .first)

/-- The effective hints as a note for messages, or nothing. -/
def describe (v : HintView) : String :=
  let entries : List (String × Option Json) := [
    ("frame", (v.effective (·.frame)).map (·.toJson .str)),
    ("iframe", (v.effective (·.iframe)).map (·.toJson .str)),
    ("root", v.root.map .str),
    ("within", v.within.map .str),
    ("parent", v.parent.map .str),
    ("index", (v.effective (·.index)).map .float),
    ("nth", v.nth.map .int),
    ("first", (v.effective (·.first)).map .bool),
    ("last", (v.effective (·.last)).map .bool)]
  let parts := entries.filterMap fun (k, j) => j.map fun j => s!"{k}={j.text}"
  if parts.isEmpty then "" else " [ctx " ++ " ".intercalate parts ++ "]"

end HintView
end PageSpec
