import PageSpec.Proofs.Execution.Nesting
import PageSpec.Proofs.Json.Permuted
/-!
Actions with their fields in another order. The slots of an action write different parts of it, and so do
those of its hints: whatever the order of the fields, the same action is read, before and after its
tokens are replaced.
-/
namespace PageSpec
open Decoder

theorem Hints.slots_commute : Hints.slots.Pairwise Slot.Commute := by
  simp only [Hints.slots, List.pairwise_cons, List.forall_mem_cons, List.not_mem_nil, false_imp_iff,
    implies_true, and_true, List.Pairwise.nil]
  and_intros
  all_goals exact Slot.of_commute fun _ _ _ => rfl

theorem Action.slots_commute : Action.slots.Pairwise Slot.Commute := by
  simp only [Action.slots, List.pairwise_cons, List.forall_mem_cons, List.not_mem_nil, false_imp_iff,
    implies_true, and_true, List.Pairwise.nil]
  and_intros
  all_goals exact Slot.of_commute fun _ _ _ => rfl

variable {fs fs' : Fields}

theorem Action.ofJson_perm {a : Action} (distinct : (Fields.keys fs).Nodup) (permuted : fs.Perm fs')
    (read : ofJson (.obj fs) = .ok a) : ofJson (.obj fs') = .ok a := by
  obtain ⟨plain, hints, own, hinted, rfl⟩ := ofJson_ok_iff.mp read
  exact ofJson_ok_iff.mpr ⟨plain, hints, fillFields_perm slots_commute distinct permuted own,
    fillFields_perm Hints.slots_commute distinct permuted hinted, rfl⟩

theorem interpolateFields_perm (b : Bag) (permuted : fs.Perm fs') :
    (interpolateFields b fs).Perm (interpolateFields b fs') := by
  rw [interpolateFields_eq_map, interpolateFields_eq_map]
  exact permuted.map _

theorem fillAction_perm (b : Bag) (distinct : (Fields.keys fs).Nodup) (permuted : fs.Perm fs') :
    ∃ filled filled' : Fields, fillAction b (.obj fs) = .obj filled ∧ fillAction b (.obj fs') = .obj filled' ∧
      filled.Perm filled' := by
  have plain := interpolateFields_perm b permuted
  have apart : (Fields.keys (interpolateFields b fs)).Nodup := keys_interpolateFields b fs ▸ distinct
  have written : (Json.obj fs').field? "forEach" = (Json.obj fs).field? "forEach" :=
    (Fields.get?_perm distinct permuted "forEach").symm
  have found := Fields.get?_perm apart plain "forEach"
  unfold fillAction
  rw [interpolateValue, interpolateValue, written]
  cases ((Json.obj fs).field? "forEach").bind (·.field? "actions") with
  | none => exact ⟨_, _, rfl, rfl, plain⟩
  | some nested =>
    dsimp only
    rw [← found]
    split
    · rename_i loop there
      have named : "forEach" ∈ Fields.keys (interpolateFields b fs) :=
        List.mem_map.mpr ⟨_, Fields.mem_of_get? there, rfl⟩
      exact ⟨_, _, rfl, rfl, Fields.set_perm apart plain named _⟩
    · exact ⟨_, _, rfl, rfl, plain⟩

/-- Replacing tokens and reading come to the same action from the fields in any order. -/
theorem read_perm {b : Bag} {a : Action} (distinct : (Fields.keys fs).Nodup) (permuted : fs.Perm fs')
    (read : Action.ofJson (fillAction b (.obj fs)) = .ok a) :
    Action.ofJson (fillAction b (.obj fs')) = .ok a := by
  obtain ⟨filled, filled', same, same', reordered⟩ := fillAction_perm b distinct permuted
  obtain ⟨kept, same'', names⟩ := fillAction_filled b fs
  cases same.symm.trans same''
  rw [same] at read
  rw [same']
  exact Action.ofJson_perm (names.keys ▸ distinct) reordered read

end PageSpec
