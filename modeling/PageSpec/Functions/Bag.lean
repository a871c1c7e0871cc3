import PageSpec.Functions.Program
import PageSpec.Json.Records
import PageSpec.Text.Base64
import PageSpec.Text.Utf8
import PageSpec.Yaml.Reader
/-!
The bag of functions that `run` calls by name. A bag is given by the caller or read from a file, in
which every entry has either a value or a command. What a command prints is its result: JSON if it
reads as such, else the trimmed text.
-/
namespace PageSpec

/-- What a name stands for. -/
inductive Function where
  | value (v : Json)
  /-- A function of the caller, by what it answers. -/
  | made (result : Except Failure Json)
  /-- A program with its arguments, started in a directory. -/
  | command (program : String) (args : List String) (directory : Option String)

/-- Functions by name, sorted, and the file they were read from. -/
structure FunctionBag where
  functions : List (String × Function)
  source : Option String

namespace FunctionBag

def empty : FunctionBag := ⟨[], none⟩

/-- Functions with one more, in the order of the names; a later one replaces an earlier one. -/
def insert : List (String × Function) → String → Function → List (String × Function)
  | [], name, f => [(name, f)]
  | (n, g) :: rest, name, f =>
    if name < n then (name, f) :: (n, g) :: rest
    else if name = n then (name, f) :: rest
    else (n, g) :: insert rest name f

def add (b : FunctionBag) (name : String) (f : Function) : FunctionBag :=
  { b with functions := insert b.functions name f }

def names (b : FunctionBag) : List String := b.functions.map (·.1)
def find? (b : FunctionBag) (name : String) : Option Function := b.functions.lookup name
def has (b : FunctionBag) (name : String) : Bool := (b.find? name).isSome

/-! ## Files -/

/-- A value in a bag file: what it is as JSON, as a text and as a list of texts. -/
structure Datum where
  isNull : Bool
  json : Json
  text : Except Misfit String
  texts : Except Misfit (List String)

def Datum.ofJson (v : Json) : Datum :=
  ⟨v.isNull, v, Decoder.string v, Decoder.list Decoder.string v⟩

/-- A text of a YAML document; every scalar is one. -/
private def yamlText (y : Yaml) : Except Misfit String :=
  match y with
  | .scalar s _ => .ok s
  | y => .error (.wrongType y.toJson "a string")

/-- The items of a YAML list; nothing at all writes an empty one. -/
private def yamlItems (y : Yaml) : Except Misfit (List Yaml) :=
  match y with
  | .list xs => .ok xs
  | .scalar "" true => .ok []
  | y => .error (.wrongType y.toJson "a sequence")

def Datum.ofYaml (y : Yaml) : Datum :=
  ⟨y.isNull, y.toJson, yamlText y, (yamlItems y).bind (·.mapM yamlText)⟩

/-- The fields of an entry, in the order in which they are written. -/
abbrev Entry := List (String × Datum)

def fieldNames : List String := ["value", "command", "args"]

/-- An entry that is written as a list holds the fields in their order. -/
def Entry.ofItems (items : List Datum) : Except Misfit Entry :=
  if fieldNames.length < items.length then .error (.length items.length "fewer elements in array")
  else .ok (fieldNames.zip items)

def Entry.ofJson : Json.Record Json → Except Misfit Entry
  | .fields fs => .ok (fs.map fun (k, v) => (k, .ofJson v))
  | .other (.arr xs) => Entry.ofItems (xs.map .ofJson)
  | .other v => .error (.wrongType v "struct FunctionEntry")

/-- The entry that a YAML value writes; nothing at all writes one without fields. -/
def Entry.ofYaml : Yaml → Except Misfit Entry
  | .map fs => .ok (fs.map fun (k, v) => (k, .ofYaml v))
  | .list xs => Entry.ofItems (xs.map .ofYaml)
  | .scalar "" true => .ok []
  | y => .error (.wrongType y.toJson "struct FunctionEntry")

/-- What is read from an entry. -/
structure Draft where
  value : Option Json
  command : Option String
  args : List String

namespace Draft

/-- Takes over a field. Null stands for absence. -/
def put (d : Draft) (name : String) (v : Datum) : Except Misfit Draft :=
  match name with
  | "value" => .ok { d with value := if v.isNull then none else some v.json }
  | "command" =>
    if v.isNull then .ok { d with command := none }
    else v.text.map fun program => { d with command := some program }
  | "args" => v.texts.map fun args => { d with args := args }
  | name => .error (.unknownWord name fieldNames)

/-- Takes over fields one by one; none may be there before. -/
def putAll : List String → Draft → Entry → Except Misfit Draft
  | _, d, [] => .ok d
  | before, d, (name, v) :: rest =>
    if before.contains name then .error (.repeatedField name)
    else (d.put name v).bind fun d => putAll (name :: before) d rest

def ofEntry (e : Entry) : Except Misfit Draft := putAll [] ⟨none, none, []⟩ e

end Draft

/-- Reads what stands under each name; the first misfit is the reason why a file cannot be read. -/
def eachNamed {α β : Type} (f : α → Except Misfit β) (xs : List (String × α)) :
    Except String (List (String × β)) :=
  xs.mapM fun x =>
    match f x.2 with
    | .ok b => .ok (x.1, b)
    | .error m => .error (m.message ++ " at line 1 column 1")

/-- The entries that a file's text writes, as often as they are written, or why it has none. -/
def entriesOf (json : Bool) (text : String) : Except String (List (String × Entry)) :=
  if json then
    match Json.readNested text with
    | .error e => .error e.message
    | .ok (.fields es) => eachNamed Entry.ofJson es
    | .ok (.other v) => .error ((Misfit.wrongType v "a map").message ++ " at line 1 column 1")
  else
    match Yaml.parse? text with
    | none => .error "malformed document at line 1 column 1"
    | some (.map es) => eachNamed Entry.ofYaml es
    | some y => .error ((Misfit.wrongType y.toJson "a map").message ++ " at line 1 column 1")

/-- The function of an entry: a value or a command, and not both. -/
def functionOf (path name : String) (d : Draft) : Except Failure Function :=
  match d.value, d.command with
  | some v, none => .ok (.value v)
  | none, some program => .ok (.command program d.args (Path.parent? path))
  | _, _ => .error (.functionBag (.entryShape path name))

/-- Of several entries under one name the last one stays. -/
def lastOnes {α : Type} (es : List (String × α)) : List (String × α) :=
  es.foldl (fun kept e => kept.filter (·.1 ≠ e.1) ++ [e]) []

/-- The entries that stay, by name. -/
def sortedByName {α : Type} (es : List (String × α)) : List (String × α) :=
  (lastOnes es).mergeSort fun a b => decide (a.1 ≤ b.1)

/-- The functions of the entries that stay. -/
def functionsOf (path : String) (drafts : List (String × Draft)) : Except Failure (List (String × Function)) :=
  (sortedByName drafts).mapM fun x => do return (x.1, ← functionOf path x.1 x.2)

/-- The bag that a file holds; files that are not named `.json` are YAML. -/
def ofFile (files : Files) (path : String) : Except Failure FunctionBag := do
  let text ← match files.readText path with
    | .ok t => pure t
    | .error e => throw (.io e)
  match entriesOf (Path.hasExtension "json" path) text >>= eachNamed Draft.ofEntry with
  | .error reason => throw (.functionBag (.unreadable path reason))
  | .ok drafts => return ⟨← functionsOf path drafts, some path⟩

/-- Where a bag is looked for below the root of a project. -/
def defaultPaths : List String :=
  ["help/plugin-func.yaml", "help/plugin-func.yml", "help/plugin-func.json"]

/-- The bag of a project: the named file, or the first default one; none if it is not there. -/
def discover (files : Files) (root : String) (explicit : Option String) :
    Except Failure (Option FunctionBag) :=
  let candidates := match explicit with
    | some p => [Path.join root p]
    | none => defaultPaths.map (Path.join root)
  match candidates.find? files.isFile with
  | some p => (ofFile files p).map some
  | none => .ok none

/-! ## Calls -/

/-- What the output of a program stands for. -/
def resultOf (out : List UInt8) : Json :=
  let text := Text.trim (Text.utf8Lossy out)
  match Json.parse text with
  | .ok v => v
  | .error _ => .str text

/-- Calls a function; a command may leave other files behind. -/
def call (b : FunctionBag) (start : Functions.Starter) (name : String) (files : Files) :
    Except Failure Json × Files :=
  match b.find? name with
  | none => (.error (.unknownFunction name), files)
  | some (.value v) => (.ok v, files)
  | some (.made r) => (r, files)
  | some (.command program args directory) =>
    match start files program args directory with
    | .error e => (.error (.functionBag (.notStarted program e)), files)
    | .ok o =>
      if o.ending = .code 0 then (.ok (resultOf o.out), o.files)
      else
        let complaint := Text.trim (Text.utf8Lossy o.err)
        (.error (.functionBag (.exited program o.ending.describe complaint)), o.files)

end FunctionBag
end PageSpec
