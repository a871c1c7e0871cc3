import PageSpec.Suite.Document
/-!
Loading suites. The documents that a document names in `before` are expanded depth first: the cases
of what a document names come before its own. A document that is being expanded may not be named
again, but one may stand in several places of a chain. Untitled suites are numbered.
-/
namespace PageSpec.Suite

/-- The cases of a document after those of the documents it names; `open_` holds the locations of
the documents being expanded, and at most `n` more may be. -/
def expand (files : Files) : Nat → List (List String) → String → Except Failure (List SuiteCase)
  | 0, _, path => .error (.beforeCycle path)
  | n + 1, open_, path => do
    if !files.isFile path then throw (.beforeNotFound path)
    let here ← (files.location path).mapError .io
    if open_.contains here then throw (.beforeCycle path)
    let doc ← Document.read files path
    let chain ← doc.before.mapM (expand files n (here :: open_))
    return chain.flatten ++ doc.cases

/-- The cases of the documents that one at a path names. Every file can be expanded in another once
at most. -/
def chainOf (files : Files) (path : String) (doc : Document) : Except Failure (List SuiteCase) := do
  let here ← (files.location path).mapError .io
  let chain ← doc.before.mapM (expand files (files.entries.length + 1) [here])
  return chain.flatten

/-- The title of the untitled suite with a number. -/
def untitled (n : Nat) : String := s!"All Tests {Text.padded 2 n}"

/-- The suite at a path, and the number of the next untitled one. -/
def load (files : Files) (path : String) (n : Nat) : Except Failure Suite × Nat :=
  match Document.read files path with
  | .error e => (.error e, n)
  | .ok doc =>
    let (title, n) := match doc.title with
      | some t => (t, n)
      | none => (untitled n, n + 1)
    (do
      let before ← chainOf files path doc
      return ⟨path, title, doc.url, before, doc.cases⟩, n)

/-! ## Finding documents -/

/-- Lexicographic order of lists of names. -/
def namesUpTo : List String → List String → Bool
  | [], _ => true
  | _ :: _, [] => false
  | a :: as, b :: bs => a < b || (a == b && namesUpTo as bs)

/-- The order in which documents run: by file name, and then by path. -/
def runsBefore (a b : String) : Bool :=
  let x := (Path.fileName? a).getD ""
  let y := (Path.fileName? b).getD ""
  x < y || (x == y && namesUpTo (Path.names a) (Path.names b))

/-- The documents among some paths, in the order in which they run. -/
def documentsAmong (paths : List String) : List String :=
  (paths.filter (Path.hasExtension "json")).mergeSort runsBefore

/-- The documents below a directory. -/
def discover (files : Files) (dir : String) : Except Failure (List String) :=
  match files.location dir, files.isDirectory dir with
  | .ok here, true =>
    .ok (documentsAmong ((files.filesBelow here).map fun l => Path.join dir ("/".intercalate l)))
  | _, _ => .error (.missingDirectory dir)

end PageSpec.Suite
