import PageSpec.Text.Find
/-!
Paths as texts: names separated by slashes. Empty pieces and single dots add nothing to a path,
except for a single dot at its start.
-/
namespace PageSpec.Path

def isAbsolute (p : String) : Bool := p.toList.head? == some '/'

/-- The texts between slashes, without the empty one before the first slash of an absolute path. -/
def pieces (p : String) : List String :=
  let all := (Text.splitAll '/' p.toList).map String.ofList
  if isAbsolute p then all.drop 1 else all

/-- Pieces in reverse, without those at the end that add nothing. -/
def significant (absolute : Bool) : List String → List String
  | [] => []
  | [p] => if p = "" ∨ (p = "." ∧ absolute) then [] else [p]
  | p :: q :: rest => if p = "" ∨ p = "." then significant absolute (q :: rest) else p :: q :: rest

/-- The path of reversed pieces. -/
def ofReversed (absolute : Bool) (ps : List String) : String :=
  (if absolute then "/" else "") ++ "/".intercalate ps.reverse

/-- The path without its last name, if it has one. -/
def parent? (p : String) : Option String :=
  let absolute := isAbsolute p
  match significant absolute (pieces p).reverse with
  | [] => none
  | _ :: rest => some (ofReversed absolute (significant absolute rest))

/-- The last name, unless it is made of dots. -/
def fileName? (p : String) : Option String :=
  match significant (isAbsolute p) (pieces p).reverse with
  | [] => none
  | name :: _ => if name = "." ∨ name = ".." then none else some name

/-- What follows the last dot of the last name, unless the name starts with that dot. -/
def extension? (p : String) : Option String :=
  match fileName? p with
  | none => none
  | some name =>
    match Text.splitOnce '.' name.toList.reverse with
    | none => none
    | some (after, before) => if before.isEmpty then none else some (.ofList after.reverse)

/-- Whether a path has an extension, in any letter case. -/
def hasExtension (wanted p : String) : Bool := (extension? p).any (Text.asciiLower · == wanted)

/-- A path below a directory; an absolute one stays as it is. -/
def join (dir p : String) : String :=
  if isAbsolute p || dir = "" then p
  else if dir.toList.getLast? = some '/' then dir ++ p
  else dir ++ "/" ++ p

/-- The names that a comparison of paths goes by. -/
def names (p : String) : List String :=
  let all := pieces p
  let kept := all.filter fun s => s ≠ "" && s ≠ "."
  if isAbsolute p then "/" :: kept
  else if all.head? = some "." then "." :: kept else kept

end PageSpec.Path
