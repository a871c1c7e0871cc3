import PageSpec.Action.Reading
import PageSpec.Files.Basic
import PageSpec.Suite.Basic
/-!
Documents. A document is an object whose field `describe` holds a title, a URL, the documents to run
before, and the cases under every other name.
-/
namespace PageSpec

/-- A document as it stands, before its references are followed. -/
structure Document where
  title : Option String
  url : Option String
  /-- Paths of other documents, from the directory of this one. -/
  before : List String
  cases : List SuiteCase

namespace Document

/-- Names that are no cases. -/
def reserved : List String := ["text", "url", "before"]

/-- The text of a field without outer blanks, unless nothing is left. -/
def titleOf (v : Option Json) : Option String :=
  ((v.bind Json.str?).map Text.trim).filter (· ≠ "")

/-- The texts that a `before` field writes. -/
def references : Option Json → Except DocumentFault (List String)
  | none => .ok []
  | some .null => .ok []
  | some (.str s) => .ok [s]
  | some (.arr xs) => xs.mapM fun x =>
    match x with
    | .str s => .ok s
    | _ => .error .beforeEntry
  | some _ => .error .beforeShape

/-- A case under its name. -/
def caseOf (path directory : String) (url : Option String) (key : String) (v : Json) :
    Except DocumentFault SuiteCase :=
  match v with
  | .obj fs =>
    match Scenario.ofJson (.obj fs) with
    | .error m => .error (.scenario key m)
    | .ok s =>
      let title := ((s.title.map Text.trim).filter (· ≠ "")).getD s!"Tests in feature {key}"
      .ok ⟨key, title, s, directory, url, path⟩
  | _ => .error (.caseShape key)

/-- The document that a text at a path writes. -/
def ofText (path text : String) : Except DocumentFault Document := do
  let root ← match Json.parse text with
    | .ok v => pure v
    | .error e => throw (.notJson e)
  match root.field? "describe" with
  | some (.obj fs) =>
    let directory := (Path.parent? path).getD ""
    let url := (Fields.get? fs "url").bind Json.str?
    let written ← references (Fields.get? fs "before")
    let before := ((written.map Text.trim).filter (· ≠ "")).map (Path.join directory)
    let cases ← (fs.filter fun f => !reserved.contains f.1).mapM fun (k, v) =>
      caseOf path directory url k v
    return ⟨titleOf (Fields.get? fs "text"), url, before, cases⟩
  | _ => throw .noDescription

/-- The document at a path. -/
def read (files : Files) (path : String) : Except Failure Document :=
  match files.readText path with
  | .error e => .error (.io e)
  | .ok text => (ofText path text).mapError (.invalidDocument path)

end Document
end PageSpec
