import PageSpec.Failure
import PageSpec.Text.Find
/-!
Chords of keys: names of modifiers and a key, joined by plus signs. A plus sign at the end is the key
itself; what stands before it is read as modifiers without the last one.
-/
namespace PageSpec.DevTools

/-- Keys that are held while another one is pressed. -/
inductive Modifier where
  | alt | control | command | shift
  deriving DecidableEq, Repr

namespace Modifier

/-- The modifier of a name. -/
def ofName? : String → Option Modifier
  | "Alt" => some .alt
  | "Control" | "Ctrl" => some .control
  | "Meta" | "Command" => some .command
  | "Shift" => some .shift
  | _ => none

/-- The bit of a modifier in a set of them. -/
def bit : Modifier → Nat
  | .alt => 1
  | .control => 2
  | .command => 4
  | .shift => 8

/-- The set of some modifiers. -/
def mask (ms : List Modifier) : Nat := ms.foldl (fun set m => set ||| m.bit) 0

end Modifier

/-- A key as it is sent. -/
structure KeyStroke where
  /-- What the key means. -/
  key : String
  /-- Where the key is on a keyboard; empty if that is not known. -/
  code : String
  /-- What the key types, if anything. -/
  text : Option String
  keyCode : Nat
  /-- The set of held modifiers. -/
  modifiers : Nat
  deriving DecidableEq, Repr

/-- A key with a name of its own: its place, its number and what it types. -/
structure NamedKey where
  code : String
  keyCode : Nat
  text : Option String
  deriving DecidableEq, Repr

/-- The keys with names. -/
def NamedKey.ofName? : String → Option NamedKey
  | "Enter" => some ⟨"Enter", 13, some "\r"⟩
  | "Tab" => some ⟨"Tab", 9, none⟩
  | "Escape" => some ⟨"Escape", 27, none⟩
  | "Backspace" => some ⟨"Backspace", 8, none⟩
  | "Delete" => some ⟨"Delete", 46, none⟩
  | "Space" | " " => some ⟨"Space", 32, some " "⟩
  | "ArrowLeft" => some ⟨"ArrowLeft", 37, none⟩
  | "ArrowUp" => some ⟨"ArrowUp", 38, none⟩
  | "ArrowRight" => some ⟨"ArrowRight", 39, none⟩
  | "ArrowDown" => some ⟨"ArrowDown", 40, none⟩
  | "Home" => some ⟨"Home", 36, none⟩
  | "End" => some ⟨"End", 35, none⟩
  | "PageUp" => some ⟨"PageUp", 33, none⟩
  | "PageDown" => some ⟨"PageDown", 34, none⟩
  | _ => none

namespace KeyStroke

/-- The small letters of ASCII as capitals. -/
private def capital (c : Char) : Char := if 'a' ≤ c ∧ c ≤ 'z' then .ofNat (c.toNat - 32) else c

/-- Where the key of a character is on a keyboard. -/
private def placeOf (c : Char) : String :=
  let upper := capital c
  if 'A' ≤ upper ∧ upper ≤ 'Z' then .ofList ['K', 'e', 'y', upper]
  else if '0' ≤ c ∧ c ≤ '9' then .ofList ['D', 'i', 'g', 'i', 't', c]
  else ""

/-- A key under some modifiers. A single character types itself unless a modifier other than Shift is
held; any other name stands for its place and types nothing. -/
def ofName (name : String) (modifiers : List Modifier) : KeyStroke :=
  let held := Modifier.mask modifiers
  let key := if name = "Space" then " " else name
  match NamedKey.ofName? name with
  | some k => ⟨key, k.code, k.text, k.keyCode, held⟩
  | none =>
    match name.toList with
    | [c] =>
      let plain := modifiers.all (· = .shift)
      ⟨key, placeOf c, if plain then some name else none, (capital c).toNat, held⟩
    | _ => ⟨key, name, none, 0, held⟩

/-- The names before the key of a chord, and the key. -/
def split? (chord : String) : Option (List String × String) :=
  let parts := (Text.splitAll '+' chord.toList).map String.ofList
  match parts.getLast? with
  | none | some "" =>
    if chord.toList.getLast? = some '+' then some (parts.take (parts.length - 2), "+") else none
  | some key => some (parts.dropLast, key)

/-- The modifiers of some names; the first name that is none is a mistake. -/
def modifiersOf (chord : String) : List String → Except Mistake (List Modifier)
  | [] => .ok []
  | name :: rest =>
    match Modifier.ofName? name with
    | none => .error (.modifier name chord)
    | some m => (modifiersOf chord rest).map (m :: ·)

/-- The key that a chord presses. -/
def parse (chord : String) : Except Mistake KeyStroke :=
  match split? chord with
  | none => .error (.chord chord)
  | some (names, key) => (modifiersOf chord names).map (ofName key)

end KeyStroke
end PageSpec.DevTools
