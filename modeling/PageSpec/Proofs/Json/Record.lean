import PageSpec.Json.Decoder
import PageSpec.Proofs.Effect
import PageSpec.Proofs.Json.Fields
/-!
Records read from JSON. A slot may leave a part of the record alone; a part that all slots but one
leave alone is what that one slot reads, or what it was at the start if its field is not there.
-/
namespace PageSpec.Decoder
variable {σ α γ : Type}

theorem optional_some {d : Decoder α} {v : Json} {x : α} (read : optional d v = .ok (some x)) :
    d v = .ok x := by
  unfold optional at read
  split at read
  · cases read
  · cases decoded : d v with
    | error e => rw [decoded] at read; cases read
    | ok y => rw [decoded] at read; cases read; rfl

theorem optional_ok {d : Decoder α} {v : Json} {o : Option α} (read : optional d v = .ok o) :
    v = .null ∨ ∃ x, d v = .ok x := by
  unfold optional at read
  split at read
  · exact .inl rfl
  · cases decoded : d v with
    | error e => rw [decoded] at read; cases read
    | ok x => exact .inr ⟨x, rfl⟩

/-- A list of anything is read as it is written. -/
theorem list_any_iff {v : Json} {xs : List Json} : list (.ok : Decoder Json) v = .ok xs ↔ v = .arr xs := by
  cases v with
  | arr ys =>
    have same : list (.ok : Decoder Json) (.arr ys) = .ok ys := by
      change ys.mapM (m := Except Misfit) pure = .ok ys
      rw [List.mapM_pure, List.map_id']
      rfl
    rw [same, Except.ok.injEq, Json.arr.injEq]
  | null | bool | int | float | str | obj =>
    constructor
    · intro read; cases read
    · intro same; cases same

/-- A fold over changed items has a counterpart over the items themselves if every step has one. -/
theorem foldlM_follows {β : Type} {R : σ → σ → Prop} {f : σ → β → Except Misfit σ} {change : β → β} :
    ∀ {xs : List β} {s s' r' : σ}, (xs.map change).foldlM f s' = .ok r' → R s s' →
      (∀ x ∈ xs, ∀ t t' u', R t t' → f t' (change x) = .ok u' → ∃ u, f t x = .ok u ∧ R u u') →
      ∃ r, xs.foldlM f s = .ok r ∧ R r r'
  | [], s, s', r', folded, related, _ => by cases folded; exact ⟨s, rfl, related⟩
  | x :: xs, s, s', r', folded, related, step => by
    rw [List.map_cons, List.foldlM_cons] at folded
    cases first : f s' (change x) with
    | error e => rw [first] at folded; cases folded
    | ok t' =>
      rw [first] at folded
      obtain ⟨t, put, related⟩ := step x List.mem_cons_self s s' t' related first
      obtain ⟨r, rest, related⟩ := foldlM_follows folded related fun y member =>
        step y (List.mem_cons_of_mem _ member)
      refine ⟨r, ?_, related⟩
      rw [List.foldlM_cons, put]
      exact rest

/-- What holds of the start and is kept by every slot on the fields it reads holds of the record. -/
theorem fillFields_keeps {slots : List (Slot σ)} {fs : Fields} {start r : σ} {P : σ → Prop}
    (filled : fillFields slots start fs = .ok r) (held : P start)
    (put : ∀ k v, (k, v) ∈ fs → ∀ slot, slots.find? (·.name == k) = some slot →
      ∀ s s', P s → slot.put v s = .ok s' → P s') : P r := by
  refine foldlM_keeps filled (fun f member s s' now => ?_) held
  obtain ⟨k, v⟩ := f
  dsimp only
  split
  · rename_i slot found
    exact put k v member slot found s s' now
  · intro same; cases same; exact now

/-- Every field of a record that is read has been taken by its slot. -/
theorem fillFields_each {slots : List (Slot σ)} {fs : Fields} {start r : σ} {k : String} {v : Json}
    {slot : Slot σ} (filled : fillFields slots start fs = .ok r) (member : (k, v) ∈ fs)
    (found : slots.find? (·.name == k) = some slot) : ∃ s s', slot.put v s = .ok s' := by
  obtain ⟨s, s', put⟩ := foldlM_each filled member
  dsimp only at put
  rw [found] at put
  exact ⟨s, s', put⟩

theorem fillItems_keeps {slots : List (Slot σ)} {xs : List Json} {start r : σ} {P : σ → Prop}
    (filled : fillItems slots start xs = .ok r) (held : P start)
    (put : ∀ v ∈ xs, ∀ slot ∈ slots, ∀ s s', P s → slot.put v s = .ok s' → P s') : P r := by
  unfold fillItems at filled
  cases folded : (slots.zip xs).foldlM (fun s (x : Slot σ × Json) => x.1.put x.2 s) start with
  | error e => rw [folded] at filled; cases filled
  | ok s =>
    rw [folded] at filled
    have kept : P s := by
      refine foldlM_keeps folded (fun x member s s' now => ?_) held
      have parts := List.of_mem_zip member
      exact put x.2 parts.2 x.1 parts.1 s s' now
    simp only [bind, Except.bind] at filled
    split at filled
    · cases filled
    · cases filled; exact kept

/-- What is read of fields whose values are changed has a counterpart in what is read of the fields
themselves, if every slot that reads one of them has one. -/
theorem fillFields_follows {slots : List (Slot σ)} {fs : Fields} {start start' r' : σ}
    {R : σ → σ → Prop} {change : String → Json → Json}
    (filled : fillFields slots start' (fs.map fun f => (f.1, change f.1 f.2)) = .ok r')
    (related : R start start')
    (put : ∀ k v, ∀ slot, slots.find? (·.name == k) = some slot →
      ∀ t t' u', R t t' → slot.put (change k v) t' = .ok u' → ∃ u, slot.put v t = .ok u ∧ R u u') :
    ∃ r, fillFields slots start fs = .ok r ∧ R r r' := by
  refine foldlM_follows filled related fun f _ t t' u' now done => ?_
  obtain ⟨k, v⟩ := f
  dsimp only at done ⊢
  cases found : slots.find? (·.name == k) with
  | none =>
    rw [found] at done
    cases done
    exact ⟨t, rfl, now⟩
  | some slot =>
    rw [found] at done
    exact put k v slot found t t' u' now done

theorem fillItems_follows {slots : List (Slot σ)} {xs : List Json} {start start' r' : σ}
    {R : σ → σ → Prop} {change : Json → Json}
    (filled : fillItems slots start' (xs.map change) = .ok r') (related : R start start')
    (put : ∀ v, ∀ slot ∈ slots, ∀ t t' u', R t t' → slot.put (change v) t' = .ok u' →
      ∃ u, slot.put v t = .ok u ∧ R u u') :
    ∃ r, fillItems slots start xs = .ok r ∧ R r r' := by
  unfold fillItems at filled
  rw [List.length_map, show slots.zip (xs.map change) =
    (slots.zip xs).map fun x => (x.1, change x.2) by rw [List.zip_map_right]; rfl] at filled
  cases folded : ((slots.zip xs).map fun x => (x.1, change x.2)).foldlM
      (fun s (x : Slot σ × Json) => x.1.put x.2 s) start' with
  | error e => rw [folded] at filled; cases filled
  | ok s' =>
    rw [folded] at filled
    simp only [bind, Except.bind] at filled
    split at filled
    · cases filled
    · rename_i short
      cases filled
      obtain ⟨r, read, related⟩ := foldlM_follows folded related fun x member t t' u' now done =>
        put x.2 x.1 (List.of_mem_zip member).1 t t' u' now done
      refine ⟨r, ?_, related⟩
      unfold fillItems
      rw [read]
      exact if_neg short

/-- A slot that leaves a part of the record alone. -/
def Slot.Leaves (look : σ → γ) (slot : Slot σ) : Prop :=
  ∀ v s s', slot.put v s = .ok s' → look s' = look s

theorem Slot.of_put {name : String} {d : Decoder α} {store : α → σ → σ} {v : Json} {s s' : σ}
    (put : (Slot.of name d store).put v s = .ok s') : ∃ x, d v = .ok x ∧ s' = store x s := by
  change (d v).map (store · s) = .ok s' at put
  cases read : d v with
  | error e => rw [read] at put; cases put
  | ok x => rw [read] at put; cases put; exact ⟨x, rfl, rfl⟩

theorem Slot.put_of {name : String} {d : Decoder α} {store : α → σ → σ} {v : Json} {s : σ} {x : α}
    (read : d v = .ok x) : (Slot.of name d store).put v s = .ok (store x s) := by
  change (d v).map (store · s) = _
  rw [read]
  rfl

theorem Slot.of_leaves {name : String} {d : Decoder α} {store : α → σ → σ} {look : σ → γ}
    (kept : ∀ x s, look (store x s) = look s) : (Slot.of name d store).Leaves look := by
  intro v s s' put
  obtain ⟨x, _, rfl⟩ := Slot.of_put put
  exact kept x s

/-- A part whose field is not there is what it was at the start. -/
theorem fillFields_absent {slots : List (Slot σ)} {fs : Fields} {start r : σ} {look : σ → γ}
    {name : String} (filled : fillFields slots start fs = .ok r)
    (others : ∀ slot ∈ slots, slot.name ≠ name → slot.Leaves look) (absent : name ∉ Fields.keys fs) :
    look r = look start := by
  refine fillFields_keeps (P := fun s => look s = look start) filled rfl ?_
  intro k v member slot found s s' now put
  have named : slot.name = k := by simpa using List.find?_some found
  have different : slot.name ≠ name := by
    rintro rfl
    exact absent (List.mem_map.mpr ⟨(k, v), member, named.symm⟩)
  rw [others slot (List.mem_of_find?_eq_some found) different v s s' put, now]

/-- A part whose field stands once is what its slot reads there. -/
theorem fillFields_present {slots : List (Slot σ)} {fs : Fields} {start r : σ} {look : σ → γ}
    {name : String} {d : Decoder α} {store : α → σ → σ} {v : Json} {part : α → γ}
    (filled : fillFields slots start fs = .ok r) (distinct : (Fields.keys fs).Nodup)
    (slot : slots.find? (·.name == name) = some (Slot.of name d store))
    (stored : ∀ x s, look (store x s) = part x)
    (others : ∀ slot ∈ slots, slot.name ≠ name → slot.Leaves look)
    (found : Fields.get? fs name = some v) : ∃ x, d v = .ok x ∧ look r = part x := by
  obtain ⟨before, after, rfl, _⟩ := Fields.split_of_get? found
  have absent : name ∉ Fields.keys after := by
    simp only [Fields.keys, List.map_append, List.map_cons] at distinct
    exact (List.nodup_cons.mp (List.nodup_append.mp distinct).2.1).1
  unfold fillFields at filled
  rw [List.foldlM_append] at filled
  generalize (List.foldlM _ start before : Except Misfit σ) = first at filled
  cases first with
  | error e => cases filled
  | ok s =>
    simp only [bind, Except.bind, List.foldlM_cons, slot] at filled
    cases put : (Slot.of name d store).put v s with
    | error e => rw [put] at filled; cases filled
    | ok s' =>
      rw [put] at filled
      obtain ⟨x, read, rfl⟩ := Slot.of_put put
      refine ⟨x, read, ?_⟩
      rw [← stored x s]
      exact fillFields_absent filled others absent

/-- An optional part whose field is not there or null is not there. -/
theorem fillFields_lacking {slots : List (Slot σ)} {fs : Fields} {start r : σ} {look : σ → Option α}
    {name : String} {d : Decoder α} {store : Option α → σ → σ}
    (filled : fillFields slots start fs = .ok r) (distinct : (Fields.keys fs).Nodup)
    (slot : slots.find? (·.name == name) = some (Slot.of name (optional d) store))
    (stored : ∀ x s, look (store x s) = x)
    (others : ∀ slot ∈ slots, slot.name ≠ name → slot.Leaves look) (empty : look start = none)
    (lacking : Fields.Lacks fs name) : look r = none := by
  cases found : Fields.get? fs name with
  | none =>
    have absent : name ∉ Fields.keys fs := Fields.has_eq_false_iff.mp (by simp [Fields.has, found])
    exact (fillFields_absent filled others absent).trans empty
  | some v =>
    obtain ⟨x, decoded, same⟩ := fillFields_present filled distinct slot stored others found
    cases lacking v found
    cases decoded
    exact same

end PageSpec.Decoder
