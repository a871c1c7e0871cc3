import Mathlib.Logic.Relation
import PageSpec.Bag
/-!
Fields of objects: what is found under a name, how deep values are nested, and what replacing tokens
leaves alone. Names and nesting stay as they are; only texts change.
-/
namespace PageSpec

namespace Fields

/-- A field is not there, or says nothing. -/
def Lacks (fs : Fields) (name : String) : Prop := ∀ v, fs.get? name = some v → v = .null

theorem has_eq_false_iff {fs : Fields} {name : String} : fs.has name = false ↔ name ∉ fs.keys := by
  induction fs with
  | nil => simp [has, get?, keys]
  | cons f rest ih =>
    obtain ⟨k, v⟩ := f
    by_cases same : k = name
    · simp [has, get?, keys, same]
    · have other : ¬ name = k := fun h => same h.symm
      have step : Fields.has ((k, v) :: rest) name = Fields.has rest name := by
        simp [has, get?, same]
      rw [step, ih]
      simp [keys, other]

theorem has_of_get? {fs : Fields} {name : String} {v : Json} (found : fs.get? name = some v) :
    fs.has name = true := by
  simp [has, found]

theorem mem_keys_set {fs : Fields} {name key : String} {v : Json} :
    key ∈ keys (fs.set name v) ↔ key = name ∨ key ∈ keys fs := by
  rw [keys_set]
  by_cases there : name ∈ keys fs
  · rw [if_pos there, or_iff_right_of_imp]
    rintro rfl
    exact there
  · rw [if_neg there, List.mem_append, List.mem_singleton, or_comm]

theorem mem_of_get? : ∀ {fs : Fields} {name : String} {v : Json}, fs.get? name = some v → (name, v) ∈ fs
  | [], _, _, found => nomatch found
  | (k, w) :: rest, name, v, found => by
    by_cases same : k = name
    · simp only [get?, same, ↓reduceIte, Option.some.injEq] at found
      simp [same, found]
    · simp only [get?, same, ↓reduceIte] at found
      exact List.mem_cons_of_mem _ (mem_of_get? found)

/-- A field that is there splits the fields around it; before it the name does not occur. -/
theorem split_of_get? : ∀ {fs : Fields} {name : String} {v : Json}, fs.get? name = some v →
    ∃ before after, fs = before ++ (name, v) :: after ∧ name ∉ keys before
  | [], _, _, found => nomatch found
  | (k, w) :: rest, name, v, found => by
    by_cases same : k = name
    · simp only [get?, same, ↓reduceIte, Option.some.injEq] at found
      exact ⟨[], rest, by simp [same, found], by simp [keys]⟩
    · simp only [get?, same, ↓reduceIte] at found
      obtain ⟨before, after, rfl, absent⟩ := split_of_get? found
      have other : ¬ name = k := fun h => same h.symm
      exact ⟨(k, w) :: before, after, rfl, by simpa [keys, other] using absent⟩

end Fields

namespace Json

mutual
/-- No object in a value has two fields of the same name. -/
def Tidy : Json → Prop
  | .arr xs => TidyItems xs
  | .obj fs => (Fields.keys fs).Nodup ∧ TidyFields fs
  | _ => True
def TidyItems : List Json → Prop
  | [] => True
  | x :: xs => x.Tidy ∧ TidyItems xs
def TidyFields : List (String × Json) → Prop
  | [] => True
  | (_, v) :: fs => v.Tidy ∧ TidyFields fs
end

theorem tidy_of_mem : ∀ {fs : Fields} {k : String} {v : Json}, TidyFields fs → (k, v) ∈ fs → v.Tidy
  | (k', w) :: rest, k, v, tidy, member => by
    obtain ⟨first, others⟩ := tidy
    rcases List.mem_cons.mp member with same | later
    · cases same; exact first
    · exact tidy_of_mem others later

theorem depth_le_depthItems : ∀ {xs : List Json} {x : Json}, x ∈ xs → x.depth ≤ depthItems xs
  | y :: ys, x, member => by
    rw [depthItems]
    rcases List.mem_cons.mp member with rfl | later
    · exact Nat.le_max_left _ _
    · exact Nat.le_trans (depth_le_depthItems later) (Nat.le_max_right _ _)

theorem depth_le_depthFields : ∀ {fs : Fields} {k : String} {v : Json},
    (k, v) ∈ fs → v.depth ≤ depthFields fs
  | (k', w) :: rest, k, v, member => by
    rw [depthFields]
    rcases List.mem_cons.mp member with same | later
    · cases same; exact Nat.le_max_left _ _
    · exact Nat.le_trans (depth_le_depthFields later) (Nat.le_max_right _ _)

theorem depthFields_set_le : ∀ (fs : Fields) (name : String) (v : Json),
    depthFields (fs.set name v) ≤ max (depthFields fs) v.depth
  | [], name, v => by simp [Fields.set, depthFields]
  | (k, old) :: rest, name, v => by
    have later := depthFields_set_le rest name v
    by_cases same : k = name
    · simp only [Fields.set, same, ↓reduceIte, depthFields]; omega
    · simp only [Fields.set, same, ↓reduceIte, depthFields]; omega

theorem depth_field?_lt {v w : Json} {name : String} (found : v.field? name = some w) :
    w.depth < v.depth := by
  cases v with
  | obj fs =>
    have bound := depth_le_depthFields (Fields.mem_of_get? found)
    rw [depth]; omega
  | null | bool | int | float | str | arr => cases found

/-! ## Inside -/

/-- A value is an item of a list, or stands in a field of an object. -/
inductive Part : Json → Json → Prop
  | item {x : Json} {xs : List Json} (member : x ∈ xs) : Part x (.arr xs)
  | field {k : String} {x : Json} {fs : Fields} (member : (k, x) ∈ fs) : Part x (.obj fs)

/-- A value stands inside another, at any depth. -/
abbrev Inside : Json → Json → Prop := Relation.TransGen Part

theorem part_of_field? {v x : Json} {name : String} (found : v.field? name = some x) : Part x v := by
  cases v with
  | obj fs => exact .field (Fields.mem_of_get? found)
  | null | bool | int | float | str | arr => cases found

/-- What the parts of a value have from it, everything inside has. -/
theorem Inside.inherits {P : Json → Prop} (step : ∀ {x v}, Part x v → P v → P x) {x v : Json}
    (inside : Inside x v) (held : P v) : P x := by
  induction inside with
  | single part => exact step part held
  | tail _ part ih => exact ih (step part held)

theorem Part.depth_lt {x v : Json} (part : Part x v) : x.depth < v.depth := by
  cases part with
  | item member =>
    have bound := depth_le_depthItems member
    rw [depth]
    omega
  | field member =>
    have bound := depth_le_depthFields member
    rw [depth]
    omega

theorem Inside.depth_lt {x v : Json} (inside : Inside x v) : x.depth < v.depth := by
  induction inside with
  | single part => exact part.depth_lt
  | tail _ part ih => exact Nat.lt_trans ih part.depth_lt

theorem tidy_of_item : ∀ {xs : List Json} {x : Json}, TidyItems xs → x ∈ xs → x.Tidy
  | y :: ys, x, tidy, member => by
    obtain ⟨first, others⟩ := tidy
    rcases List.mem_cons.mp member with rfl | later
    · exact first
    · exact tidy_of_item others later

theorem Part.tidy {x v : Json} (part : Part x v) (tidy : v.Tidy) : x.Tidy := by
  cases part with
  | item member =>
    rw [Tidy] at tidy
    exact tidy_of_item tidy member
  | field member =>
    rw [Tidy] at tidy
    exact tidy_of_mem tidy.2 member

end Json

/-! ## Replacing tokens -/

mutual
theorem depth_interpolateValue (b : Bag) : ∀ v : Json, (interpolateValue b v).depth = v.depth
  | .str s => rfl
  | .arr xs => by rw [interpolateValue, Json.depth, Json.depth, depthItems_interpolateItems]
  | .obj fs => by rw [interpolateValue, Json.depth, Json.depth, depthFields_interpolateFields]
  | .null | .bool _ | .int _ | .float _ => rfl
theorem depthItems_interpolateItems (b : Bag) :
    ∀ xs : List Json, Json.depthItems (interpolateItems b xs) = Json.depthItems xs
  | [] => rfl
  | x :: xs => by
    rw [interpolateItems, Json.depthItems, Json.depthItems, depth_interpolateValue,
      depthItems_interpolateItems]
theorem depthFields_interpolateFields (b : Bag) :
    ∀ fs : Fields, Json.depthFields (interpolateFields b fs) = Json.depthFields fs
  | [] => rfl
  | (k, v) :: fs => by
    rw [interpolateFields, Json.depthFields, Json.depthFields, depth_interpolateValue,
      depthFields_interpolateFields]
end

theorem interpolateItems_eq_map (b : Bag) :
    ∀ xs : List Json, interpolateItems b xs = xs.map (interpolateValue b)
  | [] => rfl
  | x :: xs => congrArg (interpolateValue b x :: ·) (interpolateItems_eq_map b xs)

theorem interpolateFields_eq_map (b : Bag) :
    ∀ fs : Fields, interpolateFields b fs = fs.map fun f => (f.1, interpolateValue b f.2)
  | [] => rfl
  | (k, v) :: fs => congrArg ((k, interpolateValue b v) :: ·) (interpolateFields_eq_map b fs)

theorem keys_interpolateFields (b : Bag) :
    ∀ fs : Fields, Fields.keys (interpolateFields b fs) = Fields.keys fs
  | [] => rfl
  | (k, _) :: fs => congrArg (k :: ·) (keys_interpolateFields b fs)

theorem get?_interpolateFields (b : Bag) (name : String) : ∀ fs : Fields,
    Fields.get? (interpolateFields b fs) name = (Fields.get? fs name).map (interpolateValue b)
  | [] => rfl
  | (k, v) :: fs => by
    rw [interpolateFields, Fields.get?, Fields.get?, get?_interpolateFields b name fs]
    split <;> rfl

end PageSpec
