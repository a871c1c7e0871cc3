import PageSpec.Json.Reader
import PageSpec.Yaml.Basic
/-!
Reading YAML texts: block maps and lists by indentation, flow maps and lists, plain, quoted, literal
and folded scalars, and comments. Anchors, tags and directives are refused.
-/
namespace PageSpec.Yaml

/-- A line: how far it is indented, and what follows. -/
structure Line where
  indent : Nat
  text : List Char
  deriving DecidableEq, Repr

namespace Line

def ofChars (cs : List Char) : Line := ⟨(cs.takeWhile (· = ' ')).length, cs.dropWhile (· = ' ')⟩
def chars (l : Line) : List Char := List.replicate l.indent ' ' ++ l.text

/-- Nothing, or a comment. -/
def skippable (l : Line) : Bool :=
  match l.text.dropWhile fun c => c = ' ' || c = '\t' || c = '\r' with
  | [] => true
  | c :: _ => c = '#'

/-- An item of a list starts here. -/
def isItem (l : Line) : Bool :=
  match l.text with
  | ['-'] => true
  | '-' :: c :: _ => c = ' ' || c = '\t'
  | _ => false

end Line

def significant (ls : List Line) : List Line := ls.dropWhile Line.skippable

/-! ## Quoted and flow values -/

private def hexOf? (cs : List Char) : Option Char := do
  let n ← cs.foldlM (fun n c => (Json.Reader.hexValue? c).map (n * 16 + ·)) 0
  some (Char.ofNat n)

/-- A line break inside a scalar becomes a blank. -/
private def afterBreak (cs : List Char) : List Char := cs.dropWhile fun c => c = ' ' || c = '\t'

/-- The rest of a scalar in double quotes. -/
def doubleQuoted : Nat → List Char → Option (List Char × List Char)
  | 0, _ => none
  | _ + 1, [] => none
  | _ + 1, '"' :: r => some ([], r)
  | n + 1, '\\' :: 'x' :: a :: b :: r => do
    let c ← hexOf? [a, b]
    (doubleQuoted n r).map fun (s, r) => (c :: s, r)
  | n + 1, '\\' :: 'u' :: a :: b :: c :: d :: r => do
    let c ← hexOf? [a, b, c, d]
    (doubleQuoted n r).map fun (s, r) => (c :: s, r)
  | n + 1, '\\' :: c :: r =>
    let known : Option Char := match c with
      | '0' => some '\x00'
      | 'a' => some '\x07'
      | 'v' => some '\x0b'
      | 'e' => some '\x1b'
      | ' ' => some ' '
      | c => Json.Reader.shortEscape? c
    known.bind fun k => (doubleQuoted n r).map fun (s, r) => (k :: s, r)
  | n + 1, '\n' :: r => (doubleQuoted n (afterBreak r)).map fun (s, r) => (' ' :: s, r)
  | n + 1, c :: r => (doubleQuoted n r).map fun (s, r) => (c :: s, r)

/-- The rest of a scalar in single quotes; a quote inside is written twice. -/
def singleQuoted : List Char → Option (List Char × List Char)
  | [] => none
  | '\'' :: '\'' :: r => (singleQuoted r).map fun (s, r) => ('\'' :: s, r)
  | '\'' :: r => some ([], r)
  | '\n' :: r => (singleQuoted r).map fun (s, r) => (' ' :: s.dropWhile (· = ' '), r)
  | c :: r => (singleQuoted r).map fun (s, r) => (c :: s, r)

/-- A quoted scalar, if one starts here. -/
def quoted? : List Char → Option (Option (List Char × List Char))
  | '"' :: r => some (doubleQuoted (r.length + 1) r)
  | '\'' :: r => some (singleQuoted r)
  | _ => none

/-- Blanks, line breaks and comments. -/
def flowSpace (n : Nat) (cs : List Char) : List Char :=
  match n with
  | 0 => cs
  | n + 1 =>
    match cs.dropWhile fun c => c = ' ' || c = '\t' || c = '\n' || c = '\r' with
    | '#' :: r => flowSpace n (r.dropWhile (· ≠ '\n'))
    | r => r

private def isFlowSign (c : Char) : Bool := [',', '[', ']', '{', '}'].contains c

/-- A plain scalar inside brackets. -/
def flowPlain : List Char → List Char × List Char
  | [] => ([], [])
  | [c] => if isFlowSign c || c = '\n' || c = ':' then ([], [c]) else ([c], [])
  | c :: d :: r =>
    if isFlowSign c || c = '\n' || (c = ':' && (d = ' ' || d = '\n' || isFlowSign d)) ||
        (c = ' ' && d = '#') then ([], c :: d :: r)
    else
      let (s, rest) := flowPlain (d :: r)
      (c :: s, rest)

private def trimmedScalar (cs : List Char) : String := .ofList (cs.reverse.dropWhile (· = ' ')).reverse

private def forbiddenStart (c : Char) : Bool :=
  ['&', '*', '!', '|', '>', '%', '@', '`', '#'].contains c

mutual
def flowValue : Nat → List Char → Option (Yaml × List Char)
  | 0, _ => none
  | n + 1, cs =>
    match flowSpace (n + 1) cs with
    | '[' :: r =>
      match flowSpace (n + 1) r with
      | ']' :: r => some (.list [], r)
      | r => (flowItems n r).map fun (xs, r) => (.list xs, r)
    | '{' :: r =>
      match flowSpace (n + 1) r with
      | '}' :: r => some (.map [], r)
      | r => (flowFields n r).map fun (fs, r) => (.map fs, r)
    | cs =>
      match quoted? cs with
      | some q => q.map fun (s, r) => (.scalar (.ofList s) false, r)
      | none =>
        let (s, r) := flowPlain cs
        if s.isEmpty || s.head?.any forbiddenStart then none
        else some (.scalar (trimmedScalar s) true, r)
def flowItems : Nat → List Char → Option (List Yaml × List Char)
  | 0, _ => none
  | n + 1, cs => do
    let (x, r) ← flowValue n cs
    match flowSpace (n + 1) r with
    | ']' :: r => some ([x], r)
    | ',' :: r =>
      match flowSpace (n + 1) r with
      | ']' :: r => some ([x], r)
      | r => (flowItems n r).map fun (xs, r) => (x :: xs, r)
    | _ => none
def flowFields : Nat → List Char → Option (List (String × Yaml) × List Char)
  | 0, _ => none
  | n + 1, cs => do
    let (k, r) ← flowValue n cs
    let key ← match k with
      | .scalar s _ => some s
      | _ => none
    let (v, r) ← match flowSpace (n + 1) r with
      | ':' :: r =>
        match flowSpace (n + 1) r with
        | ',' :: r => some (missing, ',' :: r)
        | '}' :: r => some (missing, '}' :: r)
        | r => flowValue n r
      | r => some (missing, r)
    match flowSpace (n + 1) r with
    | '}' :: r => some ([(key, v)], r)
    | ',' :: r =>
      match flowSpace (n + 1) r with
      | '}' :: r => some ([(key, v)], r)
      | r => (flowFields n r).map fun (fs, r) => ((key, v) :: fs, r)
    | _ => none
end

/-! ## Block values -/

/-- A line split at its key, if it has one: the key and what follows the colon. -/
def keyOf? (cs : List Char) : Option (String × List Char) :=
  match quoted? cs with
  | some (some (s, r)) =>
    match r.dropWhile (· = ' ') with
    | [':'] => some (.ofList s, [])
    | ':' :: c :: r => if c = ' ' ∨ c = '\t' then some (.ofList s, r) else none
    | _ => none
  | some none => none
  | none => plainKey [] cs
where
  plainKey (seen : List Char) : List Char → Option (String × List Char)
    | [] => none
    | [':'] => some (.ofList (seen.dropWhile (· = ' ')).reverse, [])
    | ':' :: c :: r =>
      if c = ' ' ∨ c = '\t' ∨ c = '\r' then some (.ofList (seen.dropWhile (· = ' ')).reverse, r)
      else plainKey (':' :: seen) (c :: r)
    | c :: r =>
      if seen.isEmpty && (forbiddenStart c || isFlowSign c) then none
      else if c = '#' && seen.head? = some ' ' then none
      else plainKey (c :: seen) r

/-- A plain scalar on one line, without a comment at its end. -/
def plainOnLine (before : Char) : List Char → List Char
  | [] => []
  | c :: r => if c = '#' && before = ' ' then [] else c :: plainOnLine c r

private def bare (cs : List Char) : List Char :=
  (cs.reverse.dropWhile fun c => c = ' ' || c = '\t' || c = '\r').reverse

/-- Whether a plain scalar may hold this text. -/
private def plainAllowed (cs : List Char) : Bool :=
  !(Text.occurs [':', ' '] cs) && cs.getLast? != some ':'

/-- A plain scalar that may go on over lines that are indented further. -/
def plainLines (indent : Nat) (sofar : List Char) : List Line → Option (List Char × List Line)
  | [] => some (sofar, [])
  | l :: rest =>
    if l.skippable || l.indent ≤ indent then some (sofar, l :: rest)
    else
      let more := bare (plainOnLine ' ' l.text)
      if plainAllowed more then plainLines indent (sofar ++ ' ' :: more) rest else none

/-- The lines of a literal or folded scalar: those indented further than `indent`, and blank ones. -/
def scalarLines (indent : Nat) : List Line → List Line × List Line
  | [] => ([], [])
  | l :: rest =>
    if l.text.isEmpty || indent < l.indent then
      let (mine, others) := scalarLines indent rest
      (l :: mine, others)
    else ([], l :: rest)

private def dropBlankEnd (ls : List (List Char)) : List (List Char) :=
  (ls.reverse.dropWhile List.isEmpty).reverse

private def foldLines : List (List Char) → List Char
  | [] => []
  | [l] => l
  | l :: [] :: rest => l ++ '\n' :: foldLines rest
  | l :: m :: rest => l ++ ' ' :: foldLines (m :: rest)

/-- A literal or folded scalar after its sign. -/
def blockScalar (folded : Bool) (header : List Char) (indent : Nat) (ls : List Line) :
    Option (Yaml × List Line) :=
  let header := bare header
  if !(header = [] ∨ header = ['-'] ∨ header = ['+']) then none
  else
    let (mine, rest) := scalarLines indent ls
    let base := ((mine.filter (!·.text.isEmpty)).head?.map Line.indent).getD 0
    let texts := mine.map fun l => l.chars.drop base
    let body := dropBlankEnd texts
    let joined := if folded then foldLines body else ['\n'].intercalate body
    let tail := if header = ['-'] ∨ body.isEmpty then [] else ['\n']
    some (.scalar (.ofList (joined ++ tail)) false, rest)

/-- The lines after a flow value, which has its last line for itself. -/
private def linesAfter (cs : List Char) : Option (List Line) :=
  match Text.splitAll '\n' cs with
  | [] => some []
  | first :: rest =>
    if (Line.ofChars first).skippable then some (rest.map Line.ofChars) else none

/-- A quoted or flow value that starts with the given text. -/
def flowAt (text : List Char) (rest : List Line) : Option (Yaml × List Line) := do
  let all := ['\n'].intercalate (text :: rest.map Line.chars)
  let (v, r) ← flowValue (all.length + 1) all
  return (v, ← linesAfter r)

mutual
/-- A value on lines of its own, indented by at least `low`. -/
def block : Nat → Nat → List Line → Option (Yaml × List Line)
  | 0, _, _ => none
  | n + 1, low, ls =>
    match significant ls with
    | [] => some (missing, [])
    | l :: rest =>
      if l.indent < low then some (missing, l :: rest)
      else if l.text.head? = some '\t' then none
      else if l.isItem then (items n l.indent (l :: rest)).map fun (xs, r) => (.list xs, r)
      else if (keyOf? l.text).isSome then
        (fields n l.indent (l :: rest)).map fun (fs, r) => (.map fs, r)
      else value n (low - 1) l.text rest
/-- A value that starts with some text and goes on over lines indented further than `indent`. -/
def value : Nat → Nat → List Char → List Line → Option (Yaml × List Line)
  | 0, _, _, _ => none
  | n + 1, indent, text, rest =>
    match text.dropWhile fun c => c = ' ' || c = '\t' || c = '\r' with
    | [] => block n (indent + 1) rest
    | c :: r =>
      if c = '#' then block n (indent + 1) rest
      else if c = '|' ∨ c = '>' then blockScalar (c = '>') r indent rest
      else if c = '[' ∨ c = '{' ∨ c = '"' ∨ c = '\'' then flowAt (c :: r) rest
      else if forbiddenStart c || isFlowSign c then none
      else
        let here := bare (plainOnLine ' ' (c :: r))
        if !plainAllowed here then none
        else (plainLines indent here rest).map fun (s, r) => (.scalar (.ofList s) true, r)
/-- The items of a list at an indentation. -/
def items : Nat → Nat → List Line → Option (List Yaml × List Line)
  | 0, _, _ => none
  | n + 1, indent, ls =>
    match significant ls with
    | [] => some ([], [])
    | l :: rest =>
      if l.indent < indent ∨ (l.indent = indent ∧ !l.isItem) then some ([], l :: rest)
      else if l.indent ≠ indent then none
      else
        let after := l.text.drop 1
        let inner : Line := ⟨indent + 1 + (after.takeWhile (· = ' ')).length, after.dropWhile (· = ' ')⟩
        let nested := inner.isItem || (keyOf? inner.text).isSome
        let one :=
          if !inner.skippable && nested then block n (indent + 1) (inner :: rest)
          else value n indent inner.text rest
        one.bind fun (x, r) => (items n indent r).map fun (xs, r) => (x :: xs, r)
/-- The fields of a map at an indentation. -/
def fields : Nat → Nat → List Line → Option (List (String × Yaml) × List Line)
  | 0, _, _ => none
  | n + 1, indent, ls =>
    match significant ls with
    | [] => some ([], [])
    | l :: rest =>
      if l.indent < indent then some ([], l :: rest)
      else if l.indent ≠ indent ∨ l.isItem then none
      else
        match keyOf? l.text with
        | none => none
        | some (key, after) =>
          let listBelow := match significant rest with
            | m :: _ => m.indent == indent && m.isItem
            | [] => false
          let one :=
            if (Line.ofChars after).skippable && listBelow then
              (items n indent rest).map fun (xs, r) => (Yaml.list xs, r)
            else value n indent after rest
          one.bind fun (v, r) => (fields n indent r).map fun (fs, r) => ((key, v) :: fs, r)
end

/-- The start or the end of a document. -/
private def isMarker (l : Line) : Bool :=
  bare l.chars = ['-', '-', '-'] || bare l.chars = ['.', '.', '.']

/-- The document that a text writes; none if it is malformed. An empty text writes an empty map. -/
def parse? (s : String) : Option Yaml :=
  let ls := (Text.splitAll '\n' (s.toList.filter (· ≠ '\r'))).map Line.ofChars
  let ls := match significant ls with
    | l :: rest => if isMarker l then rest else l :: rest
    | [] => []
  if (significant ls).isEmpty then some (.map [])
  else
    let fuel := 2 * s.length + 8
    match block fuel 0 ls with
    | none => none
    | some (v, rest) =>
      match significant rest with
      | [] => some v
      | l :: more => if isMarker l && (significant more).isEmpty then some v else none

end PageSpec.Yaml
