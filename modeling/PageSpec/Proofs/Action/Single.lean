import PageSpec.Proofs.Action.Reading
import PageSpec.Proofs.Json.Apart
/-!
Actions with one operation. An action of which no field names an operation is read as one that does nothing;
expecting that something is visible, and the time for it, are stored in what the other fields write.
-/
namespace PageSpec
open Decoder

namespace Action
variable {fs : Fields} {a : Action}

/-! ## No operation -/

/-- An action that does nothing. -/
def Idle (a : Action) : Prop :=
  a = { empty with hints := a.hints, loc := a.loc, timeout := a.timeout, alias_ := a.alias_ }

/-- A slot that fills no operation keeps an action from doing anything. -/
theorem slots_idle : ∀ slot ∈ slots, slot.name ∈ operationKeys ∨
    ∀ v a a', Idle a → slot.put v a = .ok a' → Idle a' := by
  simp only [slots, List.forall_mem_cons, List.not_mem_nil, false_imp_iff, implies_true, and_true]
  and_intros
  all_goals first
    | exact .inl (by decide)
    | refine .inr fun v a a' idle put => ?_
      obtain ⟨x, _, rfl⟩ := Slot.of_put put
  · exact congrArg (fun a : Action => { a with loc := x }) idle
  · exact congrArg (fun a : Action => { a with timeout := x }) idle
  · exact congrArg (fun a : Action => { a with alias_ := x }) idle

theorem ofJson_idle (read : ofJson (.obj fs) = .ok a) (others : ∀ k ∈ Fields.keys fs, k ∉ operationKeys) :
    a.Idle := by
  obtain ⟨plain, hints, filled, rfl⟩ := ofJson_eq_ok read
  have idle : Idle plain := by
    refine fillFields_keeps filled rfl fun k v member slot found s s' now put => ?_
    have named : slot.name = k := by simpa using List.find?_some found
    have other : slot.name ∉ operationKeys := by
      rw [named]
      exact others k (List.mem_map.mpr ⟨_, member, rfl⟩)
    exact (slots_idle slot (List.mem_of_find?_eq_some found)).resolve_left other v s s' now put
  exact congrArg (fun a : Action => { a with hints := hints }) idle

end Action

/-! ## Times -/

theorem nat64_untouched {v : Json} {o : Option Nat} (read : optional nat64 v = .ok o) (b : Bag) :
    interpolateValue b v = v := by
  cases v with
  | null | bool | int | float => rfl
  | str | arr | obj => cases read

/-- A time that has been read can be written again. -/
theorem nat64_rewritten {v : Json} {t : Nat} (read : optional nat64 v = .ok (some t)) :
    optional nat64 (.int t) = .ok (some t) := by
  have decoded : nat64 v = .ok t := optional_some read
  cases v with
  | int n =>
    by_cases range : 0 ≤ n ∧ n ≤ twoTo 64 - 1
    · have same : nat64 (.int n) = .ok n.toNat := by
        unfold nat64 whole
        dsimp only
        rw [if_pos range]
        rfl
      cases decoded.symm.trans same
      rw [Int.toNat_of_nonneg range.1]
      exact read
    · have refused : nat64 (.int n) = .error (.outOfRange n "u64") := by
        unfold nat64 whole
        dsimp only
        rw [if_neg range]
        rfl
      cases decoded.symm.trans refused
  | null | bool | float | str | arr | obj => cases decoded

/-! ## Expecting that something is visible -/

section
variable {α : Type} {name : String} {first second : Decoder α} {v : Json} {e e' : Misfit} {x : α}

theorem either_second (failed : first v = .error e) (read : second v = .ok x) :
    either name first second v = .ok x := by
  unfold either
  rw [failed, read]

theorem either_neither (failed : first v = .error e) (failed' : second v = .error e') :
    either name first second v = .error (.noAlternative name) := by
  unfold either
  rw [failed, failed']

end

namespace VisibleCondition

/-- The part of the object form that is read. -/
def slots : List (Slot (Option Nat)) := [.of "timeout" (optional nat64) fun t _ => t]

theorem decode_obj_iff {own : Fields} {limit : Option Nat} :
    decode (.obj own) = .ok (.options limit) ↔ fillFields slots none own = .ok limit := by
  cases filled : fillFields slots none own with
  | error e =>
    have refused : decode (.obj own) = .error (.noAlternative "VisibleExpectation") :=
      either_neither rfl (congrArg (· >>= fun t => pure (VisibleCondition.options t)) filled)
    rw [refused]
    exact ⟨nofun, nofun⟩
  | ok t =>
    have read : decode (.obj own) = .ok (.options t) :=
      either_second rfl (congrArg (· >>= fun t => pure (VisibleCondition.options t)) filled)
    rw [read, Except.ok.injEq, Except.ok.injEq, VisibleCondition.options.injEq]

/-- What is read of the object form are times, and a time has no tokens. -/
theorem decode_interpolated {own : Fields} {limit : Option Nat} (b : Bag)
    (read : decode (.obj own) = .ok (.options limit)) :
    decode (.obj (interpolateFields b own)) = .ok (.options limit) := by
  have timed : ∀ {own : Fields} {start : Option Nat}, fillFields slots start own = .ok limit →
      fillFields slots start (interpolateFields b own) = .ok limit := by
    intro own
    induction own with
    | nil => exact fun filled => filled
    | cons f own ih =>
      intro start filled
      obtain ⟨k, v⟩ := f
      rw [interpolateFields]
      cases known : slots.find? (·.name == k) with
      | none =>
        rw [fillFields_unknown known] at filled ⊢
        exact ih filled
      | some slot =>
        rw [fillFields_known known] at filled ⊢
        obtain rfl : slot = .of "timeout" (optional nat64) fun t _ => t :=
          List.mem_singleton.mp (List.mem_of_find?_eq_some known)
        cases put : (Slot.of "timeout" (optional nat64) fun t (_ : Option Nat) => t).put v start with
        | error e => rw [put] at filled; cases filled
        | ok t =>
          obtain ⟨o, made, _⟩ := Slot.of_put put
          rw [put] at filled
          rw [nat64_untouched made, put]
          exact ih filled
  exact decode_obj_iff.mpr (timed (decode_obj_iff.mp read))

/-- The time of the object form can be written on the action instead. -/
theorem decode_time {own : Fields} {t : Nat} (read : decode (.obj own) = .ok (.options (some t))) :
    optional nat64 (.int t) = .ok (some t) := by
  have filled := decode_obj_iff.mp read
  refine fillFields_keeps (P := fun o => ∀ t : Nat, o = some t → optional nat64 (.int t) = .ok (some t)) filled
    nofun ?_ t rfl
  intro k v _ slot found _ s' _ put t same
  obtain rfl : slot = .of "timeout" (optional nat64) fun t _ => t :=
    List.mem_singleton.mp (List.mem_of_find?_eq_some found)
  obtain ⟨o, made, rfl⟩ := Slot.of_put put
  exact nat64_rewritten (made.trans (congrArg Except.ok same))

end VisibleCondition

/-! ## Stored apart -/

namespace Action

/-- Slots of other names do not touch the expectation, nor the time. -/
theorem slots_carry (s : Option VisibleCondition) (t : Option Nat) : ∀ slot ∈ slots,
    (slot.name ≠ "expectVisible" → slot.Carries fun a => { a with expectVisible := s }) ∧
      (slot.name ≠ "timeout" → slot.Carries fun a => { a with timeout := t }) := by
  simp only [slots, List.forall_mem_cons, List.not_mem_nil, false_imp_iff, implies_true, and_true]
  and_intros
  all_goals first
    | exact fun _ => Slot.of_carries fun _ _ => rfl
    | exact fun other => absurd rfl other

/-- A part of an action that can be read is stored in what the other fields write. -/
theorem ofJson_apart {α : Type} {name : String} {d : Decoder α} {store : α → Action → Action} {v : Json}
    {x : α} (distinct : (Fields.keys fs).Nodup) (known : slots.find? (·.name == name) = some (Slot.of name d store))
    (others : ∀ slot ∈ slots, slot.name ≠ name → slot.Carries (store x))
    (hintless : Hints.slots.find? (·.name == name) = none)
    (kept : ∀ (a : Action) (h : Hints), store x { a with hints := h } = { store x a with hints := h })
    (found : Fields.get? fs name = some v) (read : d v = .ok x) :
    ofJson (.obj fs) = (ofJson (.obj (fs.without name))).map (store x) := by
  unfold ofJson ofFields
  dsimp only
  rw [fillFields_apart distinct known others found read, fillFields_without hintless]
  cases fillFields slots empty (fs.without name) with
  | error e => rfl
  | ok a =>
    cases fillFields Hints.slots .none fs with
    | error e => rfl
    | ok h => exact congrArg Except.ok (kept a h).symm

theorem ofJson_visible {v : Json} {s : VisibleCondition} (distinct : (Fields.keys fs).Nodup)
    (found : Fields.get? fs "expectVisible" = some v) (read : VisibleCondition.decode v = .ok s) :
    ofJson (.obj fs) =
      (ofJson (.obj (fs.without "expectVisible"))).map fun a => { a with expectVisible := some s } := by
  have known : slots.find? (·.name == "expectVisible") =
    some (.of "expectVisible" (optional VisibleCondition.decode) fun v a => { a with expectVisible := v }) := rfl
  have read : optional VisibleCondition.decode v = .ok (some s) := by
    cases v with
    | null => cases read
    | bool | int | float | str | arr | obj => exact congrArg (Except.map some) read
  exact ofJson_apart distinct known (fun slot member => (slots_carry _ none slot member).1) (by decide)
    (fun _ _ => rfl) found read

/-- A time that can be read is stored, and one that is not written is not missed. -/
theorem ofJson_timed (distinct : (Fields.keys fs).Nodup)
    (timed : ∀ v, Fields.get? fs "timeout" = some v → ∃ t, optional nat64 v = .ok t) :
    ∃ time : Option (Option Nat), ofJson (.obj fs) =
      (ofJson (.obj (fs.without "timeout"))).map fun a => { a with timeout := time.getD a.timeout } := by
  have known : slots.find? (·.name == "timeout") =
    some (.of "timeout" (optional nat64) fun v a => { a with timeout := v }) := rfl
  cases found : Fields.get? fs "timeout" with
  | none =>
    have absent : "timeout" ∉ Fields.keys fs := Fields.has_eq_false_iff.mp (by simp [Fields.has, found])
    refine ⟨none, ?_⟩
    rw [Fields.without_of_absent absent]
    cases ofJson (.obj fs) <;> rfl
  | some v =>
    obtain ⟨t, read⟩ := timed v found
    exact ⟨some t, ofJson_apart distinct known (fun slot member => (slots_carry none t slot member).2) (by decide)
      (fun _ _ => rfl) found read⟩

end Action
end PageSpec
