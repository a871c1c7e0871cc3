import PageSpec.Decimal.Binary64
/-!
JSON values. Integers and doubles are told apart, and an object keeps its fields in the order of
their first writing.
-/
namespace PageSpec

/-- A JSON value; `obj` holds its fields in order, without repeated names. -/
inductive Json where
  | null
  | bool (value : Bool)
  | int (value : Int)
  | float (value : Binary64)
  | str (value : String)
  | arr (items : List Json)
  | obj (fields : List (String × Json))
  deriving Repr, Inhabited

/-- The fields of an object. -/
abbrev Fields := List (String × Json)

namespace Fields

/-- The value of a field. -/
def get? : Fields → String → Option Json
  | [], _ => none
  | (k, v) :: rest, name => if k = name then some v else get? rest name
def has (fs : Fields) (name : String) : Bool := (fs.get? name).isSome
def keys (fs : Fields) : List String := fs.map (·.1)

/-- Writes a field: in place if the name is there, else at the end. -/
def set : Fields → String → Json → Fields
  | [], name, v => [(name, v)]
  | (k, old) :: rest, name, v => if k = name then (k, v) :: rest else (k, old) :: set rest name v

/-- The fields of a list of writes, later ones winning. -/
def ofWrites (ws : List (String × Json)) : Fields := ws.foldl (fun fs (k, v) => fs.set k v) []

theorem keys_set (fs : Fields) (name : String) (v : Json) :
    (fs.set name v).keys = if name ∈ fs.keys then fs.keys else fs.keys ++ [name] := by
  induction fs with
  | nil => simp [set, keys]
  | cons f rest ih =>
    obtain ⟨k, old⟩ := f
    by_cases h : k = name
    · simp [set, keys, h]
    · have h' : ¬ name = k := fun e => h e.symm
      have step : (set ((k, old) :: rest) name v).keys = k :: Fields.keys (Fields.set rest name v) := by
        simp [set, keys, h]
      have head : Fields.keys ((k, old) :: rest) = k :: Fields.keys rest := rfl
      rw [step, ih, head]
      simp only [List.mem_cons, h', false_or]
      split <;> simp

theorem get?_set (fs : Fields) (name other : String) (v : Json) :
    (fs.set name v).get? other = if other = name then some v else fs.get? other := by
  induction fs with
  | nil => simp [set, get?, eq_comm]
  | cons f rest ih =>
    obtain ⟨k, old⟩ := f
    by_cases h : k = name
    · subst h
      by_cases h' : k = other
      · simp [set, get?, h']
      · have h'' : ¬ other = k := fun e => h' e.symm
        simp [set, get?, h', h'']
    · by_cases h' : k = other
      · subst h'
        simp [set, get?, h]
      · simp [set, get?, h, h', ih]

end Fields

namespace Json

def isNull : Json → Bool
  | .null => true
  | _ => false

mutual
/-- How deep a value is nested; lists and objects count one level each. -/
def depth : Json → Nat
  | .arr xs => depthItems xs + 1
  | .obj fs => depthFields fs + 1
  | _ => 0
def depthItems : List Json → Nat
  | [] => 0
  | x :: xs => max (depth x) (depthItems xs)
def depthFields : List (String × Json) → Nat
  | [] => 0
  | (_, v) :: fs => max (depth v) (depthFields fs)
end

/-- The value of a field, if this is an object that has it. -/
def field? : Json → String → Option Json
  | .obj fs, name => Fields.get? fs name
  | _, _ => none

def str? : Json → Option String
  | .str s => some s
  | _ => none

def items? : Json → Option (List Json)
  | .arr xs => some xs
  | _ => none

/-- A number as a double, by its bits. -/
def double? : Json → Option Binary64
  | .int n => some (.ofInt n)
  | .float x => some x
  | _ => none

/-- A number as a double. -/
def number? (v : Json) : Option Float := v.double?.map Binary64.toFloat

def ofBytes (bs : List UInt8) : Json := .arr (bs.map fun b => .int b.toNat)
def ofStrings (ss : List String) : Json := .arr (ss.map .str)
def ofOption : Option Json → Json
  | some v => v
  | none => .null
/-- A double as JSON: numbers beyond the reals are null. -/
def ofFloat (x : Float) : Json :=
  let b := Binary64.ofFloat x
  if b.isFinite then .float b else .null

end Json
end PageSpec
