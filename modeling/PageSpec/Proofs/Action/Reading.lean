import PageSpec.Action.Reading
import PageSpec.Proofs.Json.Record
/-!
What is read of an action: an operation that is not written is not there, one that is written once is
what its decoder makes of it, and the actions of a loop lie deeper in the text than the loop.
-/
namespace PageSpec
open Decoder

/-! ## Loops -/

namespace ForEachSpec

/-- The actions of a loop are nested less deep than a value. -/
def LiesIn (s : ForEachSpec) (v : Json) : Prop := ∀ x ∈ s.actions, x.depth < v.depth

/-- The parts of a loop, in the order in which a list gives them. -/
def slots : List (Slot ForEachSpec) :=
  [ .of "items" (optional string) fun v s => { s with items := v },
    .of "actions" (list .ok) fun v s => { s with actions := v } ]

theorem mem_slots {slot : Slot ForEachSpec} : slot ∈ slots ↔
    slot = .of "items" (optional string) (fun v s => { s with items := v }) ∨
      slot = .of "actions" (list .ok) (fun v s => { s with actions := v }) := by
  simp only [slots, List.mem_cons, List.not_mem_nil, or_false]

private theorem put_inside {slot : Slot ForEachSpec} {s s' : ForEachSpec} {v w : Json}
    (isSlot : slot ∈ slots) (part : Json.Part w v) (put : slot.put w s = .ok s')
    (now : ∀ x ∈ s.actions, Json.Inside x v) : ∀ x ∈ s'.actions, Json.Inside x v := by
  rcases mem_slots.mp isSlot with rfl | rfl
  · obtain ⟨items, _, rfl⟩ := Slot.of_put put
    exact now
  · obtain ⟨xs, listed, rfl⟩ := Slot.of_put put
    cases list_any_iff.mp listed
    exact fun x member => .tail (.single (.item member)) part

/-- The actions of a loop stand inside the value that writes the loop. -/
theorem decode_inside {v : Json} {s : ForEachSpec} (read : decode v = .ok s) :
    ∀ x ∈ s.actions, Json.Inside x v := by
  unfold decode record at read
  split at read
  · refine fillFields_keeps (P := fun s => ∀ x ∈ s.actions, Json.Inside x _) read (by simp) ?_
    intro k w member slot found t t' now put
    exact put_inside (List.mem_of_find?_eq_some found) (.field member) put now
  · refine fillItems_keeps (P := fun s => ∀ x ∈ s.actions, Json.Inside x _) read (by simp) ?_
    intro w member slot isSlot t t' now put
    exact put_inside isSlot (.item member) put now
  · cases read

end ForEachSpec

namespace Action

/-! ## Fields -/

/-- A slot leaves alone the parts that the others fill. -/
structure LeavesOthers (slot : Slot Action) : Prop where
  loc : slot.name ≠ "loc" → slot.Leaves (·.loc)
  forEach : slot.name ≠ "forEach" → slot.Leaves (·.forEach)
  click : slot.name ≠ "click" → slot.Leaves (·.click)
  expectText : slot.name ≠ "expectText" → slot.Leaves (·.expectText)

theorem slots_leaveOthers : ∀ slot ∈ slots, LeavesOthers slot := by
  simp only [slots, List.forall_mem_cons, List.not_mem_nil, false_imp_iff, implies_true, and_true]
  and_intros
  all_goals
    constructor
    all_goals first
      | exact fun _ => Slot.of_leaves fun _ _ => rfl
      | exact fun other => absurd rfl other

/-- An action is read as its own fields, and its hints. -/
theorem ofJson_ok_iff {fs : Fields} {a : Action} : ofJson (.obj fs) = .ok a ↔
    ∃ plain hints, fillFields slots empty fs = .ok plain ∧ fillFields Hints.slots .none fs = .ok hints ∧
      a = { plain with hints := hints } := by
  unfold ofJson ofFields
  dsimp only
  cases own : fillFields slots empty fs with
  | error e => exact ⟨nofun, fun ⟨_, _, filled, _⟩ => nomatch filled⟩
  | ok plain =>
    cases hinted : fillFields Hints.slots .none fs with
    | error e => exact ⟨nofun, fun ⟨_, _, _, filled, _⟩ => nomatch filled⟩
    | ok hints =>
      constructor
      · intro read
        cases read
        exact ⟨plain, hints, rfl, rfl, rfl⟩
      · rintro ⟨_, _, filled, filled', rfl⟩
        cases filled
        cases filled'
        rfl

theorem ofJson_eq_ok {fs : Fields} {a : Action} (read : ofJson (.obj fs) = .ok a) :
    ∃ plain hints, fillFields slots empty fs = .ok plain ∧ a = { plain with hints := hints } := by
  obtain ⟨plain, hints, filled, _, same⟩ := ofJson_ok_iff.mp read
  exact ⟨plain, hints, filled, same⟩

section
variable {fs : Fields} {a : Action} (read : ofJson (.obj fs) = .ok a) (distinct : (Fields.keys fs).Nodup)
include read distinct

theorem loc_none (lacking : Fields.Lacks fs "loc") : a.loc = none := by
  obtain ⟨plain, hints, filled, rfl⟩ := ofJson_eq_ok read
  have isSlot : slots.find? (·.name == "loc") =
    some (.of "loc" (optional string) fun v a => { a with loc := v }) := rfl
  have others : ∀ slot ∈ slots, slot.name ≠ "loc" → slot.Leaves (·.loc) :=
    fun slot member => (slots_leaveOthers slot member).loc
  have left : plain.loc = none :=
    fillFields_lacking filled distinct isSlot (fun _ _ => rfl) others rfl lacking
  exact left

theorem click_none (lacking : Fields.Lacks fs "click") : a.click = none := by
  obtain ⟨plain, hints, filled, rfl⟩ := ofJson_eq_ok read
  have isSlot : slots.find? (·.name == "click") =
    some (.of "click" (optional string) fun v a => { a with click := v }) := rfl
  have others : ∀ slot ∈ slots, slot.name ≠ "click" → slot.Leaves (·.click) :=
    fun slot member => (slots_leaveOthers slot member).click
  have left : plain.click = none :=
    fillFields_lacking filled distinct isSlot (fun _ _ => rfl) others rfl lacking
  exact left

theorem expectText_some {own : Fields} (found : Fields.get? fs "expectText" = some (.obj own)) :
    ∃ s, TextCondition.decode (.obj own) = .ok s ∧ a.expectText = some s := by
  obtain ⟨plain, hints, filled, rfl⟩ := ofJson_eq_ok read
  have isSlot : slots.find? (·.name == "expectText") =
    some (.of "expectText" (optional TextCondition.decode) fun v a => { a with expectText := v }) := rfl
  have others : ∀ slot ∈ slots, slot.name ≠ "expectText" → slot.Leaves (·.expectText) :=
    fun slot member => (slots_leaveOthers slot member).expectText
  obtain ⟨o, decoded, same⟩ :=
    fillFields_present filled distinct isSlot (fun _ _ => rfl) others found
  change (TextCondition.decode (.obj own)).map some = .ok o at decoded
  cases expected : TextCondition.decode (.obj own) with
  | error m => rw [expected] at decoded; cases decoded
  | ok s => rw [expected] at decoded; cases decoded; exact ⟨s, rfl, same⟩

theorem forEach_written {s : ForEachSpec} (loop : a.forEach = some s) :
    ∃ v, Fields.get? fs "forEach" = some v ∧ ForEachSpec.decode v = .ok s := by
  obtain ⟨plain, hints, filled, rfl⟩ := ofJson_eq_ok read
  have isSlot : slots.find? (·.name == "forEach") =
    some (.of "forEach" (optional ForEachSpec.decode) fun v a => { a with forEach := v }) := rfl
  have others : ∀ slot ∈ slots, slot.name ≠ "forEach" → slot.Leaves (·.forEach) :=
    fun slot member => (slots_leaveOthers slot member).forEach
  cases found : Fields.get? fs "forEach" with
  | none =>
    have absent : "forEach" ∉ Fields.keys fs := Fields.has_eq_false_iff.mp (by simp [Fields.has, found])
    cases ((fillFields_absent filled others absent).symm.trans loop : none = some s)
  | some v =>
    obtain ⟨o, decoded, same⟩ := fillFields_present filled distinct isSlot (fun _ _ => rfl) others found
    cases (same.symm.trans loop : o = some s)
    exact ⟨v, rfl, optional_some decoded⟩

end

/-- The actions of a loop stand inside the action with the loop. -/
theorem forEach_inside {fs : Fields} {a : Action} {s : ForEachSpec}
    (read : ofJson (.obj fs) = .ok a) (loop : a.forEach = some s) :
    ∀ x ∈ s.actions, Json.Inside x (.obj fs) := by
  obtain ⟨plain, hints, filled, rfl⟩ := ofJson_eq_ok read
  refine fillFields_keeps (P := fun a => ∀ s, a.forEach = some s → ∀ x ∈ s.actions, Json.Inside x (.obj fs))
    filled (by simp [empty]) ?_ s loop
  intro k v member slot found b b' now put s loop
  by_cases same : slot.name = "forEach"
  · have named : slot.name = k := by simpa using List.find?_some found
    rw [← named, same] at found
    cases found
    obtain ⟨o, decoded, rfl⟩ := Slot.of_put put
    cases (show o = some s from loop)
    exact fun x inside => .tail (ForEachSpec.decode_inside (optional_some decoded) x inside) (.field member)
  · have left := (slots_leaveOthers slot (List.mem_of_find?_eq_some found)).forEach same v b b' put
    exact now s (left.symm.trans loop)

/-- The actions of a loop are nested less deep than the action with the loop. -/
theorem forEach_liesIn {fs : Fields} {a : Action} {s : ForEachSpec}
    (read : ofJson (.obj fs) = .ok a) (loop : a.forEach = some s) : s.LiesIn (.obj fs) :=
  fun x member => (forEach_inside read loop x member).depth_lt

end Action
end PageSpec
