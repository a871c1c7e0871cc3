import PageSpec.Proofs.Execution.Nesting
/-!
The actions of a loop before their turn. Replacing the tokens of an action has to leave the actions of
its loop alone, since their tokens stand for what the bag holds when they run. This is so for a loop
that names its parts. A loop that lists its parts is filled like any other list, and then its actions
stay as they are written only if they have no token that the bag knows.
-/
namespace PageSpec
open Decoder

/-- The loop of a template, read before any token is replaced. -/
def writtenLoop? (raw : Json) : Option ForEachSpec :=
  (raw.field? "forEach").bind fun v => (ForEachSpec.decode v).toOption

/-- Whether the loop of a template names its parts, and does not only list them. -/
def namesParts (raw : Json) : Prop := ∃ parts, raw.field? "forEach" = some (.obj parts)

/-! ## Reading the parts -/

/-- What replacing tokens makes of the parts of a loop that names them. -/
def fillPart (b : Bag) (name : String) (v : Json) : Json :=
  if name = "actions" then v else interpolateValue b v

theorem string_follows {b : Bag} {v : Json} {o : Option String}
    (read : optional string (interpolateValue b v) = .ok o) : ∃ o', optional string v = .ok o' := by
  cases v with
  | null => exact ⟨none, rfl⟩
  | str s => exact ⟨some s, rfl⟩
  | bool | int | float | arr | obj => cases read

theorem list_follows {b : Bag} {v : Json} {xs : List Json}
    (read : list (.ok : Decoder Json) (interpolateValue b v) = .ok xs) :
    ∃ ys, list (.ok : Decoder Json) v = .ok ys ∧ xs = interpolateItems b ys := by
  have filled := list_any_iff.mp read
  cases v with
  | arr ys => cases filled; exact ⟨ys, list_any_iff.mpr rfl, rfl⟩
  | null | bool | int | float | str | obj => cases filled

namespace ForEachSpec

/-- A loop that names its parts is read with its actions as they are written. -/
theorem decode_named {b : Bag} {parts : Fields} {s : ForEachSpec}
    (read : decode (.obj (parts.map fun f => (f.1, fillPart b f.1 f.2))) = .ok s) :
    ∃ t, decode (.obj parts) = .ok t ∧ s.actions = t.actions := by
  refine fillFields_follows (R := fun t s => s.actions = t.actions) read rfl ?_
  intro k v slot found t t' u' now put
  have named : slot.name = k := by simpa using List.find?_some found
  rcases mem_slots.mp (List.mem_of_find?_eq_some found) with rfl | rfl
  · cases named
    obtain ⟨items, decoded, rfl⟩ := Slot.of_put put
    obtain ⟨items', decoded'⟩ := string_follows decoded
    exact ⟨{ t with items := items' }, Slot.put_of decoded', now⟩
  · cases named
    obtain ⟨xs, decoded, rfl⟩ := Slot.of_put put
    have kept : list (.ok : Decoder Json) v = .ok xs := decoded
    exact ⟨{ t with actions := xs }, Slot.put_of kept, rfl⟩

/-- A loop that lists its parts is read with the tokens of its actions replaced. -/
theorem decode_listed {b : Bag} {parts : List Json} {s : ForEachSpec}
    (read : decode (.arr (interpolateItems b parts)) = .ok s) :
    ∃ t, decode (.arr parts) = .ok t ∧ s.actions = interpolateItems b t.actions := by
  rw [interpolateItems_eq_map] at read
  have start : (⟨none, []⟩ : ForEachSpec).actions = interpolateItems b (⟨none, []⟩ : ForEachSpec).actions := rfl
  refine fillItems_follows (R := fun t s => s.actions = interpolateItems b t.actions) read start ?_
  intro v slot isSlot t t' u' now put
  rcases mem_slots.mp isSlot with rfl | rfl
  · obtain ⟨items, decoded, rfl⟩ := Slot.of_put put
    obtain ⟨items', decoded'⟩ := string_follows decoded
    exact ⟨{ t with items := items' }, Slot.put_of decoded', now⟩
  · obtain ⟨xs, decoded, rfl⟩ := Slot.of_put put
    obtain ⟨ys, decoded', rfl⟩ := list_follows decoded
    exact ⟨{ t with actions := ys }, Slot.put_of decoded', rfl⟩

end ForEachSpec

/-! ## Filling the template -/

section
variable {b : Bag} {fs : Fields}

/-- Putting a part back that replacing tokens changed. -/
theorem set_interpolateFields {parts : Fields} {nested : Json} (distinct : (Fields.keys parts).Nodup)
    (found : Fields.get? parts "actions" = some nested) :
    Fields.set (interpolateFields b parts) "actions" nested =
      parts.map fun f => (f.1, fillPart b f.1 f.2) := by
  induction parts with
  | nil => cases found
  | cons f rest ih =>
    obtain ⟨k, v⟩ := f
    obtain ⟨apart, distinct⟩ := List.nodup_cons.mp distinct
    by_cases named : k = "actions"
    · subst named
      have same : v = nested := by simpa [Fields.get?] using found
      have others : ∀ f ∈ rest, (f.1, interpolateValue b f.2) = (f.1, fillPart b f.1 f.2) := by
        intro f member
        have other : f.1 ≠ "actions" := fun same => apart (List.mem_map.mpr ⟨f, member, same⟩)
        rw [fillPart, if_neg other]
      simp only [interpolateFields, Fields.set, ↓reduceIte, List.map_cons, fillPart, same,
        interpolateFields_eq_map]
      exact congrArg _ (List.map_congr_left others)
    · have later : Fields.get? rest "actions" = some nested := by
        simpa [Fields.get?, named] using found
      simp only [interpolateFields, Fields.set, named, ↓reduceIte, List.map_cons, fillPart]
      exact congrArg _ (ih distinct later)

/-- Without the part there is nothing to put back. -/
theorem interpolateFields_lacking {parts : Fields} (found : Fields.get? parts "actions" = none) :
    interpolateFields b parts = parts.map fun f => (f.1, fillPart b f.1 f.2) := by
  rw [interpolateFields_eq_map]
  refine List.map_congr_left fun f member => ?_
  have other : f.1 ≠ "actions" := by
    intro same
    have absent : "actions" ∉ Fields.keys parts := Fields.has_eq_false_iff.mp (by simp [Fields.has, found])
    exact absent (List.mem_map.mpr ⟨f, member, same⟩)
  rw [fillPart, if_neg other]

/-- A loop that names its parts is filled but for its actions. -/
theorem fillAction_named {parts : Fields} (distinct : (Fields.keys parts).Nodup)
    (written : Fields.get? fs "forEach" = some (.obj parts)) :
    (fillAction b (.obj fs)).field? "forEach" =
      some (.obj (parts.map fun f => (f.1, fillPart b f.1 f.2))) := by
  have filled : Fields.get? (interpolateFields b fs) "forEach" = some (.obj (interpolateFields b parts)) := by
    rw [get?_interpolateFields, written]
    rfl
  have there : (Json.obj fs).field? "forEach" = some (.obj parts) := written
  unfold fillAction
  rw [interpolateValue, there]
  cases inside : Fields.get? parts "actions" with
  | none =>
    have lacking : (Json.obj parts).field? "actions" = none := inside
    simp only [Option.bind_some, lacking]
    exact filled.trans (by rw [interpolateFields_lacking inside])
  | some nested =>
    have given : (Json.obj parts).field? "actions" = some nested := inside
    simp only [Option.bind_some, given, filled, set_interpolateFields distinct inside]
    exact (Fields.get?_set _ _ _ _).trans (if_pos rfl)

/-- Any other loop is filled altogether. -/
theorem fillAction_unnamed {v : Json} (written : Fields.get? fs "forEach" = some v)
    (unnamed : ∀ parts, v ≠ .obj parts) :
    (fillAction b (.obj fs)).field? "forEach" = some (interpolateValue b v) := by
  have there : (Json.obj fs).field? "forEach" = some v := written
  have nothing : v.field? "actions" = none := by
    cases v with
    | obj parts => exact absurd rfl (unnamed parts)
    | null | bool | int | float | str | arr => rfl
  unfold fillAction
  rw [interpolateValue, there]
  simp only [Option.bind_some, nothing]
  exact (get?_interpolateFields b "forEach" fs).trans (by rw [written]; rfl)

end

/-! ## Waiting -/

/-- The loop of an action is read from what filling makes of the loop in its template. -/
theorem forEach_filled {b : Bag} {fs : Fields} {a : Action} {s : ForEachSpec}
    (distinct : (Fields.keys fs).Nodup) (read : Action.ofJson (fillAction b (.obj fs)) = .ok a)
    (loop : a.forEach = some s) : ∃ v w, Fields.get? fs "forEach" = some v ∧
      (fillAction b (.obj fs)).field? "forEach" = some w ∧ ForEachSpec.decode w = .ok s := by
  obtain ⟨filled, same, kept⟩ := fillAction_filled b fs
  rw [same] at read ⊢
  obtain ⟨w, found, decoded⟩ := Action.forEach_written read (kept.keys ▸ distinct) loop
  have named : "forEach" ∈ Fields.keys fs :=
    kept.keys ▸ List.mem_map.mpr ⟨_, Fields.mem_of_get? found, rfl⟩
  cases written : Fields.get? fs "forEach" with
  | none => exact absurd named (Fields.has_eq_false_iff.mp (by simp [Fields.has, written]))
  | some v => exact ⟨v, w, rfl, found, decoded⟩

/-- The loop of a template is read with its actions as they are written if it names its parts, and
with their tokens replaced if it lists them. -/
theorem loop_read {b : Bag} {fs : Fields} {a : Action} {s : ForEachSpec} (tidy : (Json.obj fs).Tidy)
    (read : Action.ofJson (fillAction b (.obj fs)) = .ok a) (loop : a.forEach = some s) :
    ∃ t, writtenLoop? (.obj fs) = some t ∧
      (namesParts (.obj fs) ∧ s.actions = t.actions ∨
        ¬ namesParts (.obj fs) ∧ s.actions = interpolateItems b t.actions) := by
  rw [Json.Tidy] at tidy
  obtain ⟨distinct, inner⟩ := tidy
  obtain ⟨v, w, written, found, decoded⟩ := forEach_filled distinct read loop
  have there : (Json.obj fs).field? "forEach" = some v := written
  have opened {t : ForEachSpec} (read : ForEachSpec.decode v = .ok t) :
      writtenLoop? (.obj fs) = some t := by
    rw [writtenLoop?, there, Option.bind_some, read]
    rfl
  cases v with
  | obj parts =>
    have apart := Json.tidy_of_mem inner (Fields.mem_of_get? written)
    rw [Json.Tidy] at apart
    cases found.symm.trans (fillAction_named apart.1 written)
    obtain ⟨t, read, same⟩ := ForEachSpec.decode_named decoded
    exact ⟨t, opened read, .inl ⟨⟨parts, there⟩, same⟩⟩
  | arr parts =>
    cases found.symm.trans (fillAction_unnamed written fun _ => by simp)
    obtain ⟨t, read, same⟩ := ForEachSpec.decode_listed decoded
    refine ⟨t, opened read, .inr ⟨?_, same⟩⟩
    rintro ⟨parts', named⟩
    cases there.symm.trans named
  | null | bool | int | float | str =>
    cases found.symm.trans (fillAction_unnamed written fun _ => by simp)
    cases decoded

/-- The actions of a loop are read as they are written exactly if the loop names its parts, or if none
of its actions has a token to replace. -/
theorem actions_wait_iff {b : Bag} {raw : Json} {a : Action} {s : ForEachSpec} (tidy : raw.Tidy)
    (read : Action.ofJson (fillAction b raw) = .ok a) (loop : a.forEach = some s) :
    ∃ t, writtenLoop? raw = some t ∧
      (s.actions = t.actions ↔ namesParts raw ∨ interpolateItems b t.actions = t.actions) := by
  cases raw with
  | obj fs =>
    obtain ⟨t, written, ⟨named, same⟩ | ⟨listed, same⟩⟩ := loop_read tidy read loop
    · exact ⟨t, written, fun _ => .inl named, fun _ => same⟩
    · refine ⟨t, written, fun kept => .inr (same.symm.trans kept), ?_⟩
      rintro (named | free)
      · exact absurd named listed
      · exact same.trans free
  | null | bool | int | float | str | arr => cases read

/-- A loop that types into each row what it has just read there, with its parts written in a form. -/
def echoRows (form : List Json → Json) : Json :=
  .obj [("forEach", form
    [.obj [("getText", .str "span")],
      .obj [("loc", .str "input"), ("type", .str "\x7blastGetText\x7d")]])]

def namedParts (actions : List Json) : Json := .obj [("items", .str "li"), ("actions", .arr actions)]
def listedParts (actions : List Json) : Json := .arr [.str "li", .arr actions]

/-- A bag that holds a text read before the loop. -/
def earlierText : Bag := ⟨[("lastGetText", .str "old")]⟩

/-- The actions of the rows once their action has been read, as texts. -/
def rowActions (form : List Json → Json) : Option (List String) :=
  ((Action.ofJson (fillAction earlierText (echoRows form))).toOption.bind (·.forEach)).map
    (·.actions.map Json.text)

theorem echoRows_read {form : List Json → Json} {texts : List String}
    (shown : rowActions form = some texts) :
    ∃ a s, Action.ofJson (fillAction earlierText (echoRows form)) = .ok a ∧ a.forEach = some s ∧
      s.actions.map Json.text = texts := by
  obtain ⟨s, loop, same⟩ := Option.map_eq_some_iff.mp shown
  obtain ⟨a, read, loop⟩ := Option.bind_eq_some_iff.mp loop
  exact ⟨a, s, eq_ok_of_toOption read, loop, same⟩

/-- Rows whose loop names its parts get what they have just read. -/
theorem named_rows_wait : (echoRows namedParts).Tidy ∧
    ∃ a s t, Action.ofJson (fillAction earlierText (echoRows namedParts)) = .ok a ∧
      a.forEach = some s ∧ writtenLoop? (echoRows namedParts) = some t ∧ s.actions = t.actions := by
  have tidy : (echoRows namedParts).Tidy := by
    simp [echoRows, namedParts, Json.Tidy, Json.TidyItems, Json.TidyFields, Fields.keys]
  obtain ⟨texts, shown⟩ := Option.isSome_iff_exists.mp
    (show (rowActions namedParts).isSome = true by decide +kernel)
  obtain ⟨a, s, read, loop, _⟩ := echoRows_read shown
  obtain ⟨t, written, kept⟩ := actions_wait_iff tidy read loop
  exact ⟨tidy, a, s, t, read, loop, written, kept.mpr (.inl ⟨_, rfl⟩)⟩

/-- Rows whose loop lists its parts get what was read before the loop. -/
theorem listed_rows_stale : (echoRows listedParts).Tidy ∧
    ∃ a s t, Action.ofJson (fillAction earlierText (echoRows listedParts)) = .ok a ∧
      a.forEach = some s ∧ writtenLoop? (echoRows listedParts) = some t ∧ s.actions ≠ t.actions := by
  have tidy : (echoRows listedParts).Tidy := by
    simp [echoRows, listedParts, Json.Tidy, Json.TidyItems, Json.TidyFields, Fields.keys]
  obtain ⟨texts, shown⟩ := Option.isSome_iff_exists.mp
    (show (rowActions listedParts).isSome = true by decide +kernel)
  obtain ⟨a, s, read, loop, same⟩ := echoRows_read shown
  obtain ⟨t, (written : writtenLoop? (echoRows listedParts) = some t), _⟩ := loop_read tidy read loop
  refine ⟨tidy, a, s, t, read, loop, written, fun kept => ?_⟩
  have waited :
      (writtenLoop? (echoRows listedParts)).map (·.actions.map Json.text) = rowActions listedParts := by
    rw [written, shown, ← same, kept]
    rfl
  exact absurd waited (by decide +kernel)

end PageSpec
