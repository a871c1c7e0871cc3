import PageSpec.Text.Blank
import PageSpec.Text.Find
/-!
Selectors: comma-separated groups of compounds joined by the descendant and the child combinator. A
compound names a tag, an id, classes and attributes, each of them optional.
-/
namespace PageSpec.Page

/-- The conditions on one element. -/
structure Compound where
  tag : Option String
  id : Option String
  classes : List String
  /-- Attribute names, with the wanted value if there is one. -/
  attrs : List (String × Option String)
  deriving DecidableEq, Repr

def Compound.any : Compound := ⟨none, none, [], []⟩

/-- How two neighbouring compounds are related. -/
inductive Combinator where
  | descendant
  | child
  deriving DecidableEq, Repr

/-- Compounds joined from left to right; the last one stands for the matched element. -/
inductive Chain where
  | one (c : Compound)
  | link (left : Chain) (k : Combinator) (c : Compound)
  deriving DecidableEq, Repr

/-- Why a text is no selector. -/
inductive SelectorError where
  | emptyGroup | leadingCombinator | unsupported (sign : Char) | incomplete | emptyId | emptyClass
  | openAttribute | emptyAttribute | pseudoClass | unexpected (c : Char)
  deriving DecidableEq, Repr

def SelectorError.message : SelectorError → String
  | .emptyGroup => "empty selector group"
  | .leadingCombinator => "selector starts with a combinator"
  | .unsupported c => s!"combinator '{c}' is not supported"
  | .incomplete => "incomplete selector"
  | .emptyId => "empty id"
  | .emptyClass => "empty class"
  | .openAttribute => "unterminated attribute selector"
  | .emptyAttribute => "empty attribute selector"
  | .pseudoClass => "pseudo-classes are not supported"
  | .unexpected c => s!"unexpected character '{c}'"

def isNameChar (c : Char) : Bool := Text.isAsciiAlnum c || c == '-' || c == '_'

/-- A text without the given quotes, if they stand at both ends. -/
def unquoteWith? (q : Char) : List Char → Option (List Char)
  | c :: cs => if c = q ∧ cs.getLast? = some q then some cs.dropLast else none
  | [] => none

/-- The condition between the brackets of an attribute. -/
def readAttribute (body : List Char) : Except SelectorError (String × Option String) :=
  match Text.splitOnce '=' body with
  | none =>
    let name := Text.trimChars body
    if name.isEmpty then .error .emptyAttribute else .ok (.ofList name, none)
  | some (name, value) =>
    let value := Text.trimChars value
    let bare := (unquoteWith? '"' value <|> unquoteWith? '\'' value).getD value
    .ok (.ofList (Text.trimChars name), some (.ofList bare))

/-- The ids, classes and attributes of a compound, and the text after it. -/
def readQualifiers (c : Compound) (cs : List Char) : Except SelectorError (Compound × List Char) :=
  match cs with
  | [] => .ok (c, [])
  | '#' :: r =>
    let name := r.takeWhile isNameChar
    if name.isEmpty then .error .emptyId
    else readQualifiers { c with id := some (.ofList name) } (r.dropWhile isNameChar)
  | '.' :: r =>
    let name := r.takeWhile isNameChar
    if name.isEmpty then .error .emptyClass
    else readQualifiers { c with classes := c.classes ++ [.ofList name] } (r.dropWhile isNameChar)
  | '[' :: r =>
    let body := r.takeWhile (· ≠ ']')
    match r.dropWhile (· ≠ ']') with
    | [] => .error .openAttribute
    | _ :: _ => do
      let attr ← readAttribute body
      readQualifiers { c with attrs := c.attrs ++ [attr] } (r.drop (body.length + 1))
  | ':' :: _ => .error .pseudoClass
  | d :: r =>
    if Text.isBlank d || d == '>' || d == '+' || d == '~' then .ok (c, d :: r)
    else .error (.unexpected d)
termination_by cs.length
decreasing_by
  · have := (List.dropWhile_sublist isNameChar (l := r)).length_le
    simp only [List.length_cons]; omega
  · have := (List.dropWhile_sublist isNameChar (l := r)).length_le
    simp only [List.length_cons]; omega
  · simp only [List.length_cons, List.length_drop]; omega

/-- One compound and the text after it. -/
def readCompound (cs : List Char) : Except SelectorError (Compound × List Char) :=
  match cs with
  | '*' :: r => readQualifiers .any r
  | _ =>
    let name := cs.takeWhile isNameChar
    if name.isEmpty then readQualifiers .any cs
    else readQualifiers { Compound.any with tag := some (.ofList (name.map Char.toLower)) }
      (cs.dropWhile isNameChar)

/-- The compounds joined so far with one more. -/
def Chain.extend (sofar : Option Chain) (k : Option Combinator) (c : Compound) : Chain :=
  match sofar with
  | none => .one c
  | some left => .link left (k.getD .descendant) c

/-- The rest of a group: `sofar` holds the compounds read, `pending` the combinator after them. A
compound always takes a character, so the last refusal never happens. -/
def readChain (sofar : Option Chain) (pending : Option Combinator) (cs : List Char) :
    Except SelectorError Chain :=
  match cs with
  | [] =>
    match sofar with
    | some chain => if pending = some .child then .error .incomplete else .ok chain
    | none => .error .incomplete
  | c :: r =>
    if Text.isBlank c then
      readChain sofar
        (if sofar.isSome && pending.isNone then some .descendant else pending) r
    else if c = '>' then
      if sofar.isNone then .error .leadingCombinator else readChain sofar (some .child) r
    else if c = '+' ∨ c = '~' then .error (.unsupported c)
    else
      match readCompound (c :: r) with
      | .error e => .error e
      | .ok (compound, rest) =>
        if rest.length < (c :: r).length then
          readChain (some (.extend sofar pending compound)) none rest
        else .error .incomplete
termination_by cs.length
decreasing_by all_goals (simp only [List.length_cons] at *; omega)

/-- Splits at commas outside quotes and brackets. The first list is the group being read. -/
def splitGroups (quote : Option Char) (depth : Nat) : List Char → List Char × List (List Char)
  | [] => ([], [])
  | c :: cs =>
    let keep (q : Option Char) (d : Nat) :=
      let (g, gs) := splitGroups q d cs
      (c :: g, gs)
    match quote with
    | some q => keep (if c = q then none else some q) depth
    | none =>
      if c = '"' ∨ c = '\'' then keep (some c) depth
      else if c = '[' ∨ c = '(' then keep none (depth + 1)
      else if c = ']' ∨ c = ')' then keep none (depth - 1)
      else if c = ',' ∧ depth = 0 then
        let (g, gs) := splitGroups none 0 cs
        ([], g :: gs)
      else keep none depth

/-- The groups of a selector text. -/
def parseSelector (selector : String) : Except SelectorError (List Chain) :=
  let (g, gs) := splitGroups none 0 selector.toList
  (g :: gs).mapM fun group =>
    let t := Text.trimChars group
    if t.isEmpty then .error .emptyGroup else readChain none none t

end PageSpec.Page
