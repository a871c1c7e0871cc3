import PageSpec.Proofs.Json.Record
/-!
One field apart from the others. What a field says may be stored before or after the other fields are read, so
a record is what its other fields write, with the part of that field stored. Two objects that agree but for
one field therefore write the same record but for one part.
-/
namespace PageSpec

namespace Fields
variable {fs : Fields} {name other : String} {v : Json}

/-- The fields of other names. -/
def without (fs : Fields) (name : String) : Fields := fs.filter (·.1 ≠ name)

theorem without_cons_self (fs : Fields) : without ((name, v) :: fs) name = fs.without name := by
  simp [without]

theorem without_cons (apart : other ≠ name) (fs : Fields) :
    without ((other, v) :: fs) name = (other, v) :: fs.without name := by
  simp [without, apart]

theorem without_append (before after : Fields) :
    without (before ++ after) name = before.without name ++ after.without name := List.filter_append ..

theorem without_of_absent (absent : name ∉ keys fs) : fs.without name = fs := by
  refine List.filter_eq_self.mpr fun f member => decide_eq_true ?_
  rintro rfl
  exact absent (List.mem_map.mpr ⟨f, member, rfl⟩)

theorem without_comm (fs : Fields) (name other : String) :
    (fs.without name).without other = (fs.without other).without name := by
  unfold without
  rw [List.filter_filter, List.filter_filter]
  simp only [Bool.and_comm]

theorem mem_keys_without {k : String} : k ∈ keys (fs.without name) ↔ k ∈ keys fs ∧ k ≠ name := by
  unfold keys without
  simp only [List.mem_map, List.mem_filter, decide_eq_true_eq]
  constructor
  · rintro ⟨f, ⟨member, apart⟩, rfl⟩
    exact ⟨⟨f, member, rfl⟩, apart⟩
  · rintro ⟨⟨f, member, rfl⟩, apart⟩
    exact ⟨f, ⟨member, apart⟩, rfl⟩

theorem keys_without_nodup (distinct : (keys fs).Nodup) : (keys (fs.without name)).Nodup :=
  distinct.sublist (List.filter_sublist.map _)

theorem get?_without (apart : other ≠ name) (fs : Fields) : (fs.without name).get? other = fs.get? other := by
  induction fs with
  | nil => rfl
  | cons f fs ih =>
    obtain ⟨k, v⟩ := f
    by_cases same : k = name
    · subst same
      rw [without_cons_self, ih, get?, if_neg apart.symm]
    · rw [without_cons same, get?, get?, ih]

theorem without_set (v : Json) (fs : Fields) : (fs.set name v).without name = fs.without name := by
  induction fs with
  | nil => exact without_cons_self []
  | cons f fs ih =>
    obtain ⟨k, old⟩ := f
    by_cases same : k = name
    · subst same
      rw [set, if_pos rfl, without_cons_self, without_cons_self]
    · rw [set, if_neg same, without_cons same, without_cons same, ih]

theorem keys_set_nodup (distinct : (keys fs).Nodup) : (keys (fs.set name v)).Nodup := by
  rw [keys_set]
  split
  · exact distinct
  · rename_i absent
    refine List.nodup_append.mpr ⟨distinct, by simp, fun k there k' last same => ?_⟩
    cases List.mem_singleton.mp last
    exact absent (same ▸ there)

end Fields

theorem without_interpolateFields (b : Bag) (name : String) (fs : Fields) :
    Fields.without (interpolateFields b fs) name = interpolateFields b (fs.without name) := by
  induction fs with
  | nil => rfl
  | cons f fs ih =>
    obtain ⟨k, v⟩ := f
    by_cases same : k = name
    · subst same
      rw [interpolateFields, Fields.without_cons_self, Fields.without_cons_self, ih]
    · rw [interpolateFields, Fields.without_cons same, Fields.without_cons same, interpolateFields, ih]

namespace Decoder
variable {σ α : Type} {slots : List (Slot σ)} {slot : Slot σ} {fs : Fields} {start : σ} {name : String}

/-! ## One field after another -/

theorem fillFields_known (known : slots.find? (·.name == name) = some slot) (v : Json) :
    fillFields slots start ((name, v) :: fs) = slot.put v start >>= (fillFields slots · fs) := by
  unfold fillFields
  rw [List.foldlM_cons]
  dsimp only
  rw [known]

theorem fillFields_unknown (unknown : slots.find? (·.name == name) = none) (v : Json) :
    fillFields slots start ((name, v) :: fs) = fillFields slots start fs := by
  unfold fillFields
  rw [List.foldlM_cons]
  dsimp only
  rw [unknown]
  rfl

theorem fillFields_append (before after : Fields) :
    fillFields slots start (before ++ after) = fillFields slots start before >>= (fillFields slots · after) :=
  List.foldlM_append

/-! ## Apart -/

/-- It makes no difference to what a slot reads whether a change comes before or after it. -/
def Slot.Carries (change : σ → σ) (slot : Slot σ) : Prop :=
  ∀ v s, slot.put v (change s) = (slot.put v s).map change

/-- Two slots that decode alike and store what they decode before or after a change. -/
theorem Slot.of_moved {other : String} {d : Decoder α} {store store' : α → σ → σ} {change : σ → σ}
    (moved : ∀ x s, store' x (change s) = change (store x s)) (v : Json) (s : σ) :
    (Slot.of other d store').put v (change s) = ((Slot.of name d store).put v s).map change := by
  change (d v).map (store' · (change s)) = ((d v).map (store · s)).map change
  cases d v with
  | error e => rfl
  | ok x => exact congrArg Except.ok (moved x s)

theorem Slot.of_carries {d : Decoder α} {store : α → σ → σ} {change : σ → σ}
    (either : ∀ x s, store x (change s) = change (store x s)) : (Slot.of name d store).Carries change :=
  Slot.of_moved either

theorem fillFields_carries {change : σ → σ} : ∀ {fs : Fields} {start : σ},
    (∀ slot ∈ slots, slot.name ∈ Fields.keys fs → slot.Carries change) →
      fillFields slots (change start) fs = (fillFields slots start fs).map change
  | [], _, _ => rfl
  | (k, v) :: fs, start, carried => by
    have later (s : σ) : fillFields slots (change s) fs = (fillFields slots s fs).map change :=
      fillFields_carries fun slot member there => carried slot member (List.mem_cons_of_mem k there)
    cases known : slots.find? (·.name == k) with
    | none => rw [fillFields_unknown known, fillFields_unknown known, later]
    | some slot =>
      have named : slot.name = k := by simpa using List.find?_some known
      rw [fillFields_known known, fillFields_known known,
        carried slot (List.mem_of_find?_eq_some known) (named ▸ List.mem_cons_self)]
      cases slot.put v start with
      | error e => rfl
      | ok s => exact later s

/-- A field that no slot reads may as well not be there. -/
theorem fillFields_without (unknown : slots.find? (·.name == name) = none) : ∀ {fs : Fields} {start : σ},
    fillFields slots start (fs.without name) = fillFields slots start fs
  | [], _ => rfl
  | (k, v) :: fs, start => by
    by_cases same : k = name
    · rw [same, Fields.without_cons_self, fillFields_unknown unknown, fillFields_without unknown]
    · rw [Fields.without_cons same]
      cases known : slots.find? (·.name == k) with
      | none => rw [fillFields_unknown known, fillFields_unknown known, fillFields_without unknown]
      | some slot =>
        rw [fillFields_known known, fillFields_known known]
        exact bind_congr fun s => fillFields_without unknown

/-- A field that can be read is stored in what the others write. -/
theorem fillFields_apart {d : Decoder α} {store : α → σ → σ} {v : Json} {x : α}
    (distinct : (Fields.keys fs).Nodup) (known : slots.find? (·.name == name) = some (Slot.of name d store))
    (others : ∀ slot ∈ slots, slot.name ≠ name → slot.Carries (store x))
    (found : Fields.get? fs name = some v) (read : d v = .ok x) :
    fillFields slots start fs = (fillFields slots start (fs.without name)).map (store x) := by
  obtain ⟨before, after, rfl, absent⟩ := Fields.split_of_get? found
  have fresh : name ∉ Fields.keys after := by
    simp only [Fields.keys, List.map_append, List.map_cons] at distinct
    exact (List.nodup_cons.mp (List.nodup_append.mp distinct).2.1).1
  have parts : Fields.without (before ++ (name, v) :: after) name = before ++ after := by
    rw [Fields.without_append, Fields.without_cons_self, Fields.without_of_absent absent,
      Fields.without_of_absent fresh]
  have later (s : σ) : fillFields slots (store x s) after = (fillFields slots s after).map (store x) :=
    fillFields_carries fun slot member there => others slot member fun same => fresh (same ▸ there)
  rw [parts, fillFields_append, fillFields_append]
  cases fillFields slots start before with
  | error e => rfl
  | ok s =>
    have here : fillFields slots s ((name, v) :: after) = fillFields slots (store x s) after := by
      rw [fillFields_known known, Slot.put_of read]
      rfl
    exact here.trans (later s)

end Decoder
end PageSpec
