import PageSpec.Json.Printer
import PageSpec.Text.Quoted
/-!
Reading typed data out of JSON values. A decoder either yields its datum or names the first misfit:
an object's fields are visited in the order they are written, and unknown ones are passed over.
-/
namespace PageSpec

/-- How a JSON value fails to be what is wanted of it. -/
inductive Misfit where
  /-- A value of another kind. -/
  | wrongType (found : Json) (wanted : String)
  /-- A whole number beyond the wanted range. -/
  | outOfRange (found : Int) (wanted : String)
  /-- An object with no or several fields where one is wanted. -/
  | notSingle (wanted : String)
  /-- A list of the wrong length. -/
  | length (found : Nat) (wanted : String)
  /-- None of the alternatives of a datum with several shapes. -/
  | noAlternative (name : String)
  /-- A word outside a closed list. -/
  | unknownWord (word : String) (known : List String)
  /-- A word where the alternative it names carries data. -/
  | bareWord (wanted : String)
  | missingField (name : String)
  | repeatedField (name : String)
  /-- Something structured where a text is wanted. -/
  | notText (found : Json)

namespace Misfit

/-- How a value is named when it is not what was wanted. -/
def describe : Json → String
  | .null => "null"
  | .bool b => s!"boolean `{b}`"
  | .int n => s!"integer `{n}`"
  | .float x => s!"floating point `{Json.text (.float x)}`"
  | .str s => s!"string {Text.quote s}"
  | .arr _ => "sequence"
  | .obj _ => "map"

/-- The words of a closed list, as prose. -/
def wordList : List String → String
  | [] => "there are no variants"
  | [a] => s!"expected `{a}`"
  | [a, b] => s!"expected `{a}` or `{b}`"
  | ws => "expected one of " ++ ", ".intercalate (ws.map fun w => s!"`{w}`")

def message : Misfit → String
  | .wrongType found wanted => s!"invalid type: {describe found}, expected {wanted}"
  | .outOfRange found wanted => s!"invalid value: integer `{found}`, expected {wanted}"
  | .notSingle wanted => s!"invalid value: map, expected {wanted}"
  | .length found wanted => s!"invalid length {found}, expected {wanted}"
  | .noAlternative name => s!"data did not match any variant of untagged enum {name}"
  | .unknownWord word known => s!"unknown variant `{word}`, {wordList known}"
  | .bareWord wanted => s!"invalid type: unit variant, expected {wanted}"
  | .missingField name => s!"missing field `{name}`"
  | .repeatedField name => s!"duplicate field `{name}`"
  | .notText found => s!"expected a string, got {found.text}"

end Misfit

/-- A reading of a JSON value as an `α`. -/
abbrev Decoder (α : Type) := Json → Except Misfit α

namespace Decoder

def string : Decoder String
  | .str s => .ok s
  | v => .error (.wrongType v "a string")

def bool : Decoder Bool
  | .bool b => .ok b
  | v => .error (.wrongType v "a boolean")

/-- A whole number from `low` to `high`. -/
def whole (low high : Int) (wanted : String) : Decoder Int
  | .int n => if low ≤ n ∧ n ≤ high then .ok n else .error (.outOfRange n wanted)
  | v => .error (.wrongType v wanted)

def int64 : Decoder Int := whole leastInt64 greatestInt64 "i64"
def nat64 : Decoder Nat := fun v => (whole 0 (twoTo 64 - 1) "u64" v).map Int.toNat
def nat16 : Decoder Nat := fun v => (whole 0 (twoTo 16 - 1) "u16" v).map Int.toNat
/-- A count or a position. -/
def size : Decoder Nat := fun v => (whole 0 (twoTo 64 - 1) "usize" v).map Int.toNat

def double : Decoder Binary64
  | .int n => .ok (.ofInt n)
  | .float x => .ok x
  | v => .error (.wrongType v "f64")

/-- Null stands for absence. -/
def optional {α : Type} (d : Decoder α) : Decoder (Option α)
  | .null => .ok none
  | v => (d v).map some

def list {α : Type} (d : Decoder α) : Decoder (List α)
  | .arr xs => xs.mapM d
  | v => .error (.wrongType v "a sequence")

/-- Texts; numbers and booleans count as the text that writes them, null as absence. -/
def textLike : Decoder (Option String)
  | .null => .ok none
  | .str s => .ok (some s)
  | v@(.int _) | v@(.float _) | v@(.bool _) => .ok (some v.text)
  | v => .error (.notText v)

/-- The first of two decoders that fits; a failure of both names the datum. -/
def either {α : Type} (name : String) (first second : Decoder α) : Decoder α := fun v =>
  match first v, second v with
  | .ok a, _ => .ok a
  | .error _, .ok a => .ok a
  | .error _, .error _ => .error (.noAlternative name)

/-- A field of a record: its written name, and how its value changes the record. -/
structure Slot (σ : Type) where
  name : String
  put : Json → σ → Except Misfit σ

/-- A slot that decodes its value and stores it. -/
def Slot.of {σ α : Type} (name : String) (d : Decoder α) (store : α → σ → σ) : Slot σ :=
  ⟨name, fun v s => (d v).map (store · s)⟩

/-- The known fields of an object, in document order. -/
def fillFields {σ : Type} (slots : List (Slot σ)) (start : σ) (fs : Fields) : Except Misfit σ :=
  fs.foldlM (fun s (k, v) =>
    match slots.find? (·.name == k) with
    | some slot => slot.put v s
    | none => .ok s) start

/-- The items of a list, slot by slot; a list longer than the slots is refused after them. -/
def fillItems {σ : Type} (slots : List (Slot σ)) (start : σ) (xs : List Json) : Except Misfit σ := do
  let s ← (slots.zip xs).foldlM (fun s (slot, v) => slot.put v s) start
  if slots.length < xs.length then .error (.length xs.length "fewer elements in array") else .ok s

/-- A record, written as an object or as the list of its values. -/
def record {σ : Type} (name : String) (slots : List (Slot σ)) (start : σ) : Decoder σ
  | .obj fs => fillFields slots start fs
  | .arr xs => fillItems slots start xs
  | v => .error (.wrongType v s!"struct {name}")

/-- A record that only objects write. -/
def objectOnly {σ : Type} (wanted : String) (slots : List (Slot σ)) (start : σ) : Decoder σ
  | .obj fs => fillFields slots start fs
  | v => .error (.wrongType v wanted)

/-- One of several named alternatives: a bare word, or an object whose single field holds the data of
the alternative. -/
def alternative (names : List String) : Decoder (String × Option Json)
  | .str w => if names.contains w then .ok (w, none) else .error (.unknownWord w names)
  | .obj [(w, v)] => if names.contains w then .ok (w, some v) else .error (.unknownWord w names)
  | .obj _ => .error (.notSingle "map with a single key")
  | v => .error (.wrongType v "string or map")

/-- An alternative without data. -/
def noData {α : Type} (a : α) : Option Json → Except Misfit α
  | none => .ok a
  | some .null => .ok a
  | some v => .error (.wrongType v "unit")

/-- An alternative that carries one value. -/
def withData {α : Type} (d : Decoder α) : Option Json → Except Misfit α
  | some v => d v
  | none => .error (.bareWord "newtype variant")

/-- An alternative that carries a record, which is finished by `close`. -/
def withRecord {σ α : Type} (name : String) (slots : List (Slot σ)) (start : σ)
    (close : σ → Except Misfit α) : Option Json → Except Misfit α
  | some (.obj fs) => do close (← fillFields slots start fs)
  | some (.arr xs) => do
    let s ← fillItems slots start (xs.take slots.length)
    if xs.length < slots.length then
      throw (.length xs.length s!"struct variant {name} with {slots.length} elements")
    if slots.length < xs.length then throw (.length xs.length "fewer elements in array")
    close s
  | some v => .error (.wrongType v "struct variant")
  | none => .error (.bareWord "struct variant")

/-- A field that has to be there. -/
def required {α : Type} (name : String) : Option α → Except Misfit α
  | some a => .ok a
  | none => .error (.missingField name)

end Decoder

/-! ## Values that may be written alone or as a list -/

inductive OneOrMany (α : Type) where
  | one (value : α)
  | many (values : List α)
  deriving DecidableEq, Repr

namespace OneOrMany
variable {α : Type}

def toList : OneOrMany α → List α
  | .one a => [a]
  | .many as => as

/-- The value as it was written. -/
def toJson (f : α → Json) : OneOrMany α → Json
  | .one a => f a
  | .many as => .arr (as.map f)

def decode (d : Decoder α) : Decoder (OneOrMany α) :=
  Decoder.either "OneOrMany" (fun v => (d v).map .one) (fun v => (Decoder.list d v).map .many)

end OneOrMany
end PageSpec
