import PageSpec.Decimal.Power
import PageSpec.Text.Find
/-!
What the words after the name of a program mean: options, which start with dashes, words that stand
for themselves, and the names of commands. `Form.read` reads the words of one form up to the name of
a command. The value of an option is looked at when the next option or word shows that it is
complete, so that an unknown option is complained about before the value that stands ahead of it.
-/
namespace PageSpec.CommandLine

/-- Why words are not carried out. -/
inductive Stop where
  | unknownArgument
  /-- A value is missing, or is not one of those that are allowed. -/
  | invalidValue
  /-- A value is not a number. -/
  | notNumber
  /-- What may be given once is given again. -/
  | repeated
  /-- A value for an option that takes none. -/
  | unwantedValue
  | unknownCommand
  | noCommand
  | nothingGiven
  /-- Help is asked for. -/
  | help
  /-- The version is asked for, of the program or of one of its commands. -/
  | version (title : String)
  deriving DecidableEq, Repr

/-! ## Values -/

/-- What a value has to be. -/
inductive Kind where
  | text
  /-- Anything but nothing. -/
  | path
  /-- A number below 2^64. -/
  | number
  | oneOf (words : List String)
  deriving DecidableEq, Repr

/-- A number below 2^64, in decimal digits after an optional plus sign. -/
def number? (s : String) : Option Nat :=
  let digits := match s.toList with
    | '+' :: cs => cs
    | cs => cs
  let n := Text.digitsValue digits
  if !digits.isEmpty && digits.all Text.isDigit && n < twoTo 64 then some n else none

/-- What is wrong with a value. -/
def Kind.fault? (value : String) : Kind → Option Stop
  | .text => none
  | .path => if value = "" then some .invalidValue else none
  | .number => if (number? value).isSome then none else some .notNumber
  | .oneOf words => if words.contains value then none else some .invalidValue

/-! ## Forms -/

/-- What giving a parameter does. -/
inductive Use where
  /-- It counts how often it is given. -/
  | count
  /-- It is given or not. -/
  | switch
  /-- It has a value. -/
  | one (kind : Kind)
  /-- It has a value each time it is given. -/
  | many (kind : Kind)
  | help
  | version
  deriving DecidableEq, Repr

structure Parameter where
  name : String
  letter : Option Char
  use : Use
  /-- The variable of the environment that is read if the parameter is not given. -/
  standIn : Option String
  deriving DecidableEq, Repr

/-- Whether a value follows. -/
def Parameter.takesValue (p : Parameter) : Bool :=
  match p.use with
  | .one _ | .many _ => true
  | _ => false

/-- What a program or a command takes. -/
structure Form where
  title : String
  options : List Parameter
  /-- The meanings of words that are no options, in order. -/
  places : List Parameter
  /-- The names of commands. -/
  commands : List String
  deriving DecidableEq, Repr

/-! ## Reading -/

/-- What is given, in order: the names of parameters with their values. -/
abbrev Given := List (String × String)

namespace Given

def has (g : Given) (name : String) : Bool := g.any (·.1 == name)
def count (g : Given) (name : String) : Nat := g.countP (·.1 == name)
def all (g : Given) (name : String) : List String :=
  g.filterMap fun (n, v) => if n = name then some v else none
def first? (g : Given) (name : String) : Option String := (g.all name).head?

/-- A switch is on if it is given, unless the environment says `false`. -/
def isOn (g : Given) (name : String) : Bool := g.first? name == some "true"

/-- What is given together with what is given elsewhere; a name that is given here counts here
only. -/
def above (g elsewhere : Given) : Given := g ++ elsewhere.filter fun (n, _) => !g.has n

end Given

/-- How far words are read. -/
structure Reading where
  given : Given
  /-- The last parameter, with its value if there is one yet. -/
  pending : Option (Parameter × Option String)
  /-- The places that are not taken. -/
  places : List Parameter
  /-- Dashes mean nothing any more. -/
  literal : Bool
  deriving DecidableEq, Repr

namespace Reading

/-- Takes a parameter. -/
def take (title : String) (r : Reading) (p : Parameter) (value : Option String) :
    Except Stop Reading :=
  let add (v : String) : Reading := { r with given := r.given ++ [(p.name, v)] }
  match p.use, value with
  | .help, _ => .error .help
  | .version, _ => .error (.version title)
  | .count, _ => .ok (add "")
  | .switch, v =>
    if r.given.has p.name then .error .repeated
    else
      match v with
      | none => .ok (add "true")
      | some v => if ["true", "false"].contains v then .ok (add v) else .error .invalidValue
  | .one _, none | .many _, none => .error .invalidValue
  | .one kind, some v =>
    if r.given.has p.name then .error .repeated
    else
      match kind.fault? v with
      | some s => .error s
      | none => .ok (add v)
  | .many kind, some v =>
    match kind.fault? v with
    | some s => .error s
    | none => .ok (add v)

/-- Takes the last parameter. -/
def settle (title : String) (r : Reading) : Except Stop Reading :=
  match r.pending with
  | none => .ok r
  | some (p, v) => { r with pending := none }.take title p v

/-- The parameter whose value is still to come. -/
def awaiting (r : Reading) : Option Parameter :=
  match r.pending with
  | some (p, none) => some p
  | _ => none

end Reading

namespace Form

/-- Nothing is read yet. -/
def start (f : Form) : Reading := ⟨[], none, f.places, false⟩

/-- An option by its name, with the value that is attached to it. -/
def named (f : Form) (r : Reading) (name : String) (value : Option String) : Except Stop Reading :=
  match f.options.find? (·.name == name) with
  | none => .error .unknownArgument
  | some p =>
    match p.takesValue, value with
    | true, none => do return { ← r.settle f.title with pending := some (p, none) }
    | false, some _ => .error .unwantedValue
    | _, v => do (← r.settle f.title).take f.title p v

/-- Options by their letters. What follows the letter of one that takes a value is the value. -/
def lettered (f : Form) : Reading → List Char → Except Stop Reading
  | r, [] => .ok r
  | r, c :: cs =>
    match f.options.find? (·.letter == some c) with
    | none => .error .unknownArgument
    | some p =>
      match r.settle f.title with
      | .error s => .error s
      | .ok r =>
        if p.takesValue then
          match cs with
          | [] => .ok { r with pending := some (p, none) }
          | '=' :: value => r.take f.title p (some (.ofList value))
          | value => r.take f.title p (some (.ofList value))
        else
          match r.take f.title p none with
          | .error s => .error s
          | .ok r => f.lettered r cs

/-- A word that takes the next place. -/
def placed (f : Form) (r : Reading) (word : String) : Except Stop Reading :=
  match r.places with
  | p :: places => do
    return { ← r.settle f.title with pending := some (p, some word), places := places }
  | [] =>
    if f.commands.isEmpty || (r.literal && f.commands.contains word) then .error .unknownArgument
    else .error .unknownCommand

/-- Reads one word. -/
def word (f : Form) (r : Reading) (w : String) : Except Stop Reading :=
  if r.literal then f.placed r w
  else
    match w.toList with
    | ['-', '-'] => .ok { r with literal := true }
    | '-' :: '-' :: cs =>
      match Text.splitOnce '=' cs with
      | some (name, value) => f.named r (.ofList name) (some (.ofList value))
      | none => f.named r (.ofList cs) none
    | '-' :: c :: cs => f.lettered r (c :: cs)
    | _ =>
      match r.awaiting with
      | some p => .ok { r with pending := some (p, some w) }
      | none => f.placed r w

/-- Reads words up to the name of a command; the answer has the name and the words after it. -/
def read (f : Form) :
    Reading → List String → Except Stop (Reading × Option (String × List String))
  | r, [] => .ok (r, none)
  | r, w :: ws =>
    if !r.literal && r.awaiting.isNone && f.commands.contains w then .ok (r, some (w, ws))
    else
      match f.word r w with
      | .error s => .error s
      | .ok r => f.read r ws

/-- What is given once all words are read. The environment stands in for what is not. -/
def finish (f : Form) (env : String → Option String) (r : Reading) : Except Stop Given := do
  let r ← r.settle f.title
  let r ← (f.options ++ f.places).foldlM (fun r p =>
    match p.standIn.bind env with
    | some v => if r.given.has p.name then pure r else r.take f.title p (some v)
    | none => pure r) r
  return r.given

end Form
end PageSpec.CommandLine
