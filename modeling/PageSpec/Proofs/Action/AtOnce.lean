import PageSpec.Proofs.Action.Reading
import PageSpec.Proofs.Execution.Nesting
import PageSpec.Proofs.Json.Apart
/-!
Actions that type at once what they were to type slowly. Of an action as written the field is renamed, of one that
has been read the text is moved; replacing tokens and reading come to the same before and after.
-/
namespace PageSpec
open Decoder

/-! ## As written -/

namespace Fields
variable {fs : Fields} {name : String}

/-- A text to type slowly is one to type. -/
def nameAtOnce (name : String) : String := if name = "typeSlow" then "type" else name

/-- The fields with the text that was to be typed slowly typed at once. -/
def atOnce (fs : Fields) : Fields := fs.map fun f => (nameAtOnce f.1, f.2)

theorem nameAtOnce_slow : nameAtOnce "typeSlow" = "type" := if_pos rfl

theorem nameAtOnce_other (other : name ≠ "typeSlow") : nameAtOnce name = name := if_neg other

theorem atOnce_cons (k : String) (v : Json) (fs : Fields) : atOnce ((k, v) :: fs) = (nameAtOnce k, v) :: fs.atOnce := rfl

theorem keys_atOnce (fs : Fields) : keys fs.atOnce = (keys fs).map nameAtOnce := by
  unfold atOnce keys
  rw [List.map_map, List.map_map]
  rfl

theorem nameAtOnce_eq_iff {k : String} (other : name ≠ "type") (other' : name ≠ "typeSlow") :
    nameAtOnce k = name ↔ k = name := by
  unfold nameAtOnce
  split
  · rename_i slow
    exact iff_of_false (fun same => other same.symm) fun same => other' (same.symm.trans slow)
  · rfl

theorem get?_atOnce (other : name ≠ "type") (other' : name ≠ "typeSlow") (fs : Fields) :
    fs.atOnce.get? name = fs.get? name := by
  induction fs with
  | nil => rfl
  | cons f fs ih =>
    rw [atOnce_cons f.1 f.2 fs, get?, get?, ih]
    simp only [nameAtOnce_eq_iff other other']

theorem set_atOnce (other : name ≠ "type") (other' : name ≠ "typeSlow") (w : Json) (fs : Fields) :
    fs.atOnce.set name w = (fs.set name w).atOnce := by
  induction fs with
  | nil =>
    have named : nameAtOnce name = name := nameAtOnce_other other'
    rw [set, atOnce_cons, named]
    rfl
  | cons f fs ih =>
    rw [atOnce_cons f.1 f.2 fs, set, set, ih]
    by_cases same : f.1 = name
    · rw [if_pos same, if_pos ((nameAtOnce_eq_iff other other').mpr same), atOnce_cons]
    · rw [if_neg same, if_neg fun there => same ((nameAtOnce_eq_iff other other').mp there), atOnce_cons]

end Fields

/-- Tokens are replaced in values, whatever the names. -/
theorem interpolateFields_atOnce (b : Bag) (fs : Fields) :
    interpolateFields b fs.atOnce = Fields.atOnce (interpolateFields b fs) := by
  rw [interpolateFields_eq_map, interpolateFields_eq_map]
  unfold Fields.atOnce
  rw [List.map_map, List.map_map]
  rfl

theorem fillAction_atOnce (b : Bag) (fs : Fields) : ∃ filled, fillAction b (.obj fs) = .obj filled ∧
    fillAction b (.obj fs.atOnce) = .obj (Fields.atOnce filled) := by
  have written : (Json.obj fs.atOnce).field? "forEach" = (Json.obj fs).field? "forEach" :=
    Fields.get?_atOnce (by decide) (by decide) fs
  have found : Fields.get? (Fields.atOnce (interpolateFields b fs)) "forEach" =
    Fields.get? (interpolateFields b fs) "forEach" := Fields.get?_atOnce (by decide) (by decide) _
  unfold fillAction
  rw [interpolateValue, interpolateValue, written, interpolateFields_atOnce]
  cases ((Json.obj fs).field? "forEach").bind (·.field? "actions") with
  | none => exact ⟨_, rfl, rfl⟩
  | some nested =>
    dsimp only
    rw [found]
    split
    · exact ⟨_, rfl, congrArg Json.obj (Fields.set_atOnce (by decide) (by decide) _ _)⟩
    · exact ⟨_, rfl, rfl⟩

/-! ## As read -/

section
variable {τ : Type} {slots : List (Slot τ)} {g : τ → τ}

/-- Slots take a text to type at once as they take one to type slowly, and every other field as before, along a
change of what is read. -/
structure TakesAtOnce (slots : List (Slot τ)) (g : τ → τ) : Prop where
  unknown : ∀ {k}, k ≠ "type" → slots.find? (·.name == k) = none → slots.find? (·.name == Fields.nameAtOnce k) = none
  known : ∀ {k slot}, k ≠ "type" → slots.find? (·.name == k) = some slot → ∃ slot',
    slots.find? (·.name == Fields.nameAtOnce k) = some slot' ∧ ∀ v x, slot'.put v (g x) = (slot.put v x).map g

theorem fillFields_atOnce (takes : TakesAtOnce slots g) : ∀ {fs : Fields} {x : τ}, "type" ∉ Fields.keys fs →
    fillFields slots (g x) (Fields.atOnce fs) = (fillFields slots x fs).map g
  | [], _, _ => rfl
  | (k, v) :: fs, x, absent => by
    have other : k ≠ "type" := fun same => absent (same ▸ List.mem_cons_self)
    have later (y : τ) : fillFields slots (g y) (Fields.atOnce fs) = (fillFields slots y fs).map g :=
      fillFields_atOnce takes fun member => absent (List.mem_cons_of_mem k member)
    rw [Fields.atOnce_cons]
    cases found : slots.find? (·.name == k) with
    | none => rw [fillFields_unknown found, fillFields_unknown (takes.unknown other found), later]
    | some slot =>
      obtain ⟨slot', found', put⟩ := takes.known other found
      rw [fillFields_known found, fillFields_known found', put]
      cases slot.put v x with
      | error m => rfl
      | ok y => exact later y

end

/-- Hints have nothing to do with texts to type. -/
theorem Hints.takesAtOnce : TakesAtOnce Hints.slots id where
  unknown {k} _ unknown := by
    by_cases slow : k = "typeSlow"
    · rw [slow, Fields.nameAtOnce_slow]
      decide
    · rwa [Fields.nameAtOnce_other slow]
  known {k slot} _ known := by
    have other : k ≠ "typeSlow" := by
      rintro rfl
      cases known
    rw [Fields.nameAtOnce_other other]
    refine ⟨slot, known, fun v h => ?_⟩
    rw [id, Except.map_id, id]

namespace Action
variable {fs : Fields}

/-- The action with the text that was to be typed slowly typed at once. -/
def atOnce (a : Action) : Action := { a with type := a.typeSlow, typeSlow := none }

/-- Slots of other names do not touch the texts to type. -/
theorem slots_atOnce : ∀ slot ∈ slots, slot.name = "type" ∨ slot.name = "typeSlow" ∨ slot.Carries atOnce := by
  simp only [slots, List.forall_mem_cons, List.not_mem_nil, false_imp_iff, implies_true, and_true]
  and_intros
  all_goals first
    | exact .inl rfl
    | exact .inr (.inl rfl)
    | exact .inr (.inr (Slot.of_carries fun _ _ => rfl))

theorem slots_leaveType : ∀ slot ∈ slots, slot.name ≠ "type" → slot.Leaves (·.type) := by
  simp only [slots, List.forall_mem_cons, List.not_mem_nil, false_imp_iff, implies_true, and_true]
  and_intros
  all_goals first
    | exact fun _ => Slot.of_leaves fun _ _ => rfl
    | exact fun other => absurd rfl other

theorem takesAtOnce : TakesAtOnce slots atOnce where
  unknown {k} _ unknown := by
    have other : k ≠ "typeSlow" := by
      rintro rfl
      cases unknown
    rwa [Fields.nameAtOnce_other other]
  known {k slot} other known := by
    by_cases slow : k = "typeSlow"
    · subst slow
      cases known
      exact ⟨.of "type" (optional string) fun v a => { a with type := v }, rfl, Slot.of_moved fun _ _ => rfl⟩
    · have named : slot.name = k := by simpa using List.find?_some known
      rw [Fields.nameAtOnce_other slow]
      refine ⟨slot, known, ?_⟩
      rcases slots_atOnce slot (List.mem_of_find?_eq_some known) with type | typeSlow | carries
      · exact absurd (named.symm.trans type) other
      · exact absurd (named.symm.trans typeSlow) slow
      · exact carries

/-- What is read is the same action with the text typed at once. -/
theorem ofJson_atOnce (absent : "type" ∉ Fields.keys fs) : ofJson (.obj fs.atOnce) = (ofJson (.obj fs)).map atOnce := by
  unfold ofJson ofFields
  dsimp only
  have own : fillFields slots empty fs.atOnce = (fillFields slots empty fs).map atOnce :=
    fillFields_atOnce takesAtOnce (x := empty) absent
  have hints : fillFields Hints.slots .none fs.atOnce = (fillFields Hints.slots .none fs).map id :=
    fillFields_atOnce Hints.takesAtOnce absent
  rw [own, hints, Except.map_id, id]
  cases fillFields slots empty fs with
  | error m => rfl
  | ok a => cases fillFields Hints.slots .none fs <;> rfl

/-- No text is typed at once before. -/
theorem untyped {a : Action} (read : ofJson (.obj fs) = .ok a) (absent : "type" ∉ Fields.keys fs) : a.type = none := by
  obtain ⟨plain, hints, filled, rfl⟩ := ofJson_eq_ok read
  exact fillFields_absent filled slots_leaveType absent

end Action
end PageSpec
