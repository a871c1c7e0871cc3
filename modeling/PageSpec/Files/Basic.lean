import PageSpec.Failure
import PageSpec.Files.Path
/-!
Files. Every entry has a location, which is the list of names that lead to it from the root. A path
leads on from the root if it starts with a slash, and else from the working directory.
-/
namespace PageSpec

inductive Entry where
  | directory
  | text (content : String)
  | picture (bytes : List UInt8)
  deriving DecidableEq, Repr

/-- The number of bytes of an entry. -/
def Entry.size : Entry → Nat
  | .directory => 0
  | .text s => s.utf8ByteSize
  | .picture bs => bs.length

/-- Entries by location. -/
structure Files where
  entries : List (List String × Entry)
  /-- The location of the working directory. -/
  home : List String
  deriving DecidableEq, Repr, Inhabited

namespace Files

/-- No files, with the root as the working directory. -/
def empty : Files := ⟨[], []⟩

/-- No files but the directories that lead to the working directory. -/
def under (home : List String) : Files :=
  ⟨(List.range home.length).map fun n => (home.take (n + 1), .directory), home⟩

/-- What is at a location; the root is a directory. -/
def at? (f : Files) (location : List String) : Option Entry :=
  if location = [] then some .directory else f.entries.lookup location

/-- Puts an entry at a location, in place of whatever was there. -/
def put (f : Files) (location : List String) (e : Entry) : Files :=
  if (f.entries.lookup location).isSome then
    { f with entries := f.entries.map fun (l, old) => if l = location then (l, e) else (l, old) }
  else { f with entries := f.entries ++ [(location, e)] }

/-- Follows names from a location; every name is looked up in a directory. Above the root there is only
the root. -/
def walk (f : Files) : List String → List String → Except IoFault (List String)
  | here, [] => .ok here
  | here, name :: rest =>
    match f.at? here with
    | none => .error .notFound
    | some .directory =>
      if name = "." then walk f here rest
      else if name = ".." then walk f here.dropLast rest
      else walk f (here ++ [name]) rest
    | some _ => .error .notDirectory

/-- Where a path starts: at the root, or at a directory. -/
def start (here : List String) (p : String) : List String := if Path.isAbsolute p then [] else here

/-- The location of a path, from a directory. A slash at the end asks for a directory. -/
def locationFrom (f : Files) (here : List String) (p : String) : Except IoFault (List String) :=
  if p = "" then .error .notFound
  else
    let names := (Path.pieces p).filter (· ≠ "")
    walk f (start here p) (if p.toList.getLast? = some '/' then names ++ ["."] else names)

/-- The location of a path. There may be nothing at it. -/
def location (f : Files) (p : String) : Except IoFault (List String) := f.locationFrom f.home p

/-- What is at a path, from a directory. -/
def entryFrom (f : Files) (here : List String) (p : String) : Except IoFault Entry := do
  match f.at? (← f.locationFrom here p) with
  | some e => return e
  | none => throw .notFound

def entry (f : Files) (p : String) : Except IoFault Entry := f.entryFrom f.home p

def exists_ (f : Files) (p : String) : Bool := (f.entry p).isOk

def isDirectory (f : Files) (p : String) : Bool :=
  match f.entry p with
  | .ok .directory => true
  | _ => false

def isFile (f : Files) (p : String) : Bool :=
  match f.entry p with
  | .ok .directory => false
  | .ok _ => true
  | .error _ => false

/-- The text of a file. -/
def readText (f : Files) (p : String) : Except IoFault String := do
  match ← f.entry p with
  | .text s => return s
  | .directory => throw .isDirectory
  | .picture _ => throw .notText

/-- The location of a path that may end in slashes. -/
def bareLocation (f : Files) (here : List String) (p : String) :
    Except IoFault (List String) :=
  if p = "" then .error .notFound
  else walk f (start here p) ((Path.pieces p).filter (· ≠ ""))

/-- Writes a file into a directory that is there. -/
def writeFrom (f : Files) (here : List String) (p : String) (e : Entry) : Except IoFault Files := do
  let at_ ← bareLocation f here p
  let slash := p.toList.getLast? = some '/'
  match f.at? at_ with
  | some .directory => throw .isDirectory
  | some _ => if slash then throw .notDirectory else return f.put at_ e
  | none => if slash then throw .isDirectory else return f.put at_ e

def write (f : Files) (p : String) (e : Entry) : Except IoFault Files := f.writeFrom f.home p e

/-- Makes one directory. -/
def makeDirectory (f : Files) (p : String) : Except IoFault Files := do
  let at_ ← bareLocation f f.home p
  match f.at? at_ with
  | some _ => throw .exists_
  | none => return f.put at_ .directory

/-- Makes a directory, unless it is there. -/
def ensureDirectory (f : Files) (p : String) : Except IoFault Files :=
  match f.makeDirectory p with
  | .ok made => .ok made
  | .error e => if f.isDirectory p then .ok f else .error e

/-- Makes a directory and those above it, at most `n` of them. The directories that were made before
one could not be made stay. -/
def makeUpTo (f : Files) : Nat → String → Except IoFault Unit × Files
  | 0, _ => (.ok (), f)
  | n + 1, p =>
    if p = "" then (.ok (), f)
    else
      match f.ensureDirectory p with
      | .ok made => (.ok (), made)
      | .error .notFound =>
        match Path.parent? p with
        | none => (.error .notFound, f)
        | some above =>
          match f.makeUpTo n above with
          | (.error e, made) => (.error e, made)
          | (.ok (), made) =>
            match made.ensureDirectory p with
            | .ok whole => (.ok (), whole)
            | .error e => (.error e, made)
      | .error e => (.error e, f)

/-- Makes a directory and all that are missing above it, as far as they can be made. -/
def makeAll (f : Files) (p : String) : Except IoFault Unit × Files :=
  f.makeUpTo ((Path.pieces p).length + 1) p

/-- The files with a directory and all that are missing above it, if they can be made. -/
def makeDirectories (f : Files) (p : String) : Except IoFault Files :=
  match f.makeAll p with
  | (.ok (), made) => .ok made
  | (.error e, _) => .error e

/-- The locations of the files below a location. -/
def filesBelow (f : Files) (here : List String) : List (List String) :=
  f.entries.filterMap fun (l, e) =>
    if e ≠ .directory && here.isPrefixOf l then some (l.drop here.length) else none

end Files
end PageSpec
