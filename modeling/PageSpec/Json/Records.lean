import PageSpec.Json.Reader
/-!
Records in JSON texts. Who looks for the fields of a record meets each of them as it is written, and so notices a name
that is written again; a value has forgotten all but the last one.
-/
namespace PageSpec.Json

/-- What is written where a record is looked for: fields between braces, or another value. -/
inductive Record (α : Type) where
  | fields (fs : List (String × α))
  | other (v : Json)
  deriving Repr

namespace Reader

/-- One field or more, up to the closing brace, with a reader for what stands behind the colons. -/
def members {α : Type} (item : Nat → List Char → Except Stop (α × List Char)) :
    Nat → List Char → Except Stop (List (String × α) × List Char)
  | 0, cs => .error (.ended, cs)
  | fuel + 1, cs =>
    match skip cs with
    | '"' :: r => do
      let (k, r) ← stringRest r
      match skip r with
      | ':' :: r =>
        let (a, r) ← item fuel r
        match skip r with
        | ',' :: r' =>
          let (fs, r'') ← members item fuel r'
          .ok ((.ofList k, a) :: fs, r'')
        | '}' :: r' => .ok ([(.ofList k, a)], r')
        | r' => .error (if r'.isEmpty then .ended else .unexpected, r')
      | r => .error (if r.isEmpty then .ended else .unexpected, r)
    | r => .error (if r.isEmpty then .ended else .unexpected, r)

/-- A record at the start of the text, with at most `depth` levels of nesting. -/
def record {α : Type} (item : Nat → Nat → List Char → Except Stop (α × List Char)) :
    Nat → Nat → List Char → Except Stop (Record α × List Char)
  | 0, _, cs => .error (.ended, cs)
  | fuel + 1, depth, cs =>
    match skip cs with
    | '{' :: r =>
      match depth with
      | 0 => .error (.tooDeep, r)
      | d + 1 =>
        match skip r with
        | '}' :: r' => .ok (.fields [], r')
        | r' => (members (item · d) fuel r').map fun (fs, r'') => (.fields fs, r'')
    | cs => (value (fuel + 1) depth cs).map fun (v, r) => (.other v, r)

end Reader

/-- What a text writes where a record of records is looked for. -/
def readNested (s : String) : Except SyntaxError (Record (Record Json)) :=
  read (Reader.record (Reader.record Reader.value)) s

end PageSpec.Json
