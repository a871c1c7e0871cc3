import PageSpec.Proofs.Action.Loops
import PageSpec.Proofs.Execution.Guards
/-!
The names in the bag. A run of actions forgets no name, also when it fails, and every name it adds is one
of those that operations write or the alias of a call that stands in the list of the actions, in loops
of any depth.
-/
namespace PageSpec

/-! ## Occurrences -/

/-- A template is among the actions of the loop that another one writes. -/
def ListedIn (x raw : Json) : Prop := ∃ t, writtenLoop? raw = some t ∧ x ∈ t.actions

/-- A template is in a list, or in a loop that occurs there. -/
inductive OccursIn (raws : List Json) : Json → Prop
  | top {raw : Json} (member : raw ∈ raws) : OccursIn raws raw
  | nested {x raw : Json} (outer : OccursIn raws raw) (listed : ListedIn x raw) : OccursIn raws x

theorem ListedIn.inside {x raw : Json} (listed : ListedIn x raw) : Json.Inside x raw := by
  obtain ⟨t, written, member⟩ := listed
  obtain ⟨v, found, read⟩ := Option.bind_eq_some_iff.mp written
  exact .tail (ForEachSpec.decode_inside (eq_ok_of_toOption read) x member) (Json.part_of_field? found)

theorem OccursIn.tidy {raws : List Json} {x : Json} (tidy : ∀ raw ∈ raws, raw.Tidy)
    (occurs : OccursIn raws x) : x.Tidy := by
  induction occurs with
  | top member => exact tidy _ member
  | nested _ listed ih => exact listed.inside.inherits Json.Part.tidy ih

/-! ## Growing -/

namespace Bag

theorem mem_keys_set {b : Bag} {name key : String} {v : Json} :
    key ∈ (b.set name v).keys ↔ key = name ∨ key ∈ b.keys := Fields.mem_keys_set

theorem get?_set {b : Bag} {name key : String} {v : Json} :
    (b.set name v).get? key = if key = name then some v else b.get? key :=
  Fields.get?_set b.values name key v

/-- A bag has all names of another one, and otherwise only names of some kind. -/
structure Grown (names : String → Prop) (b b' : Bag) : Prop where
  kept : ∀ key ∈ b.keys, key ∈ b'.keys
  named : ∀ key ∈ b'.keys, key ∈ b.keys ∨ names key

namespace Grown
variable {names : String → Prop} {b b' b'' : Bag}

theorem refl (b : Bag) : Grown names b b := ⟨fun _ there => there, fun _ there => .inl there⟩

theorem trans (first : Grown names b b') (second : Grown names b' b'') : Grown names b b'' :=
  ⟨fun key there => second.kept key (first.kept key there),
    fun key there => (second.named key there).elim (first.named key) .inr⟩

theorem set {name : String} (v : Json) (declared : names name) : Grown names b (b.set name v) where
  kept key there := mem_keys_set.mpr (.inr there)
  named key there := by
    rcases mem_keys_set.mp there with rfl | before
    · exact .inr declared
    · exact .inl before

theorem withAnswer {alias_ : Option String} (v : Json) (result : names resultKey)
    (declared : ∀ key, alias_ = some key → names key) : Grown names b (b.withAnswer alias_ v) := by
  cases alias_ with
  | none => exact .set v result
  | some key => exact (Grown.set v result).trans (.set v (declared key rfl))

end Grown

/-- An answer stands under both of its names. -/
theorem get?_withAnswer {b : Bag} {alias_ : Option String} {v : Json} {key : String}
    (own : key = resultKey ∨ alias_ = some key) : (b.withAnswer alias_ v).get? key = some v := by
  cases alias_ with
  | none =>
    obtain rfl := own.resolve_right nofun
    unfold withAnswer
    rw [get?_set, if_pos rfl]
  | some name =>
    unfold withAnswer
    rw [get?_set, get?_set]
    rcases own with rfl | same
    · rw [if_pos rfl, ite_self]
    · cases same
      rw [if_pos rfl]

end Bag

/-- The names that a list of templates declares: those that operations write, and the aliases of the
calls that occur in it. -/
inductive DeclaredIn (raws : List Json) : String → Prop
  | typed : DeclaredIn raws typedKey
  | got : DeclaredIn raws gotKey
  | result : DeclaredIn raws resultKey
  | alias_ {fs : Fields} {run : Json} {key : String} (occurs : OccursIn raws (.obj fs))
    (call : Fields.get? fs "run" = some run) (named : aliasOf (Fields.get? fs "as") = some key) :
    DeclaredIn raws key

namespace Exec
variable {σ : Type} {c : Setting} {raws : List Json}

/-- Adding only names that a list declares. -/
abbrev growing (raws : List Json) : Bound (Run σ) :=
  .free ⟨fun r q => r.bag.Grown (DeclaredIn raws) q.bag, fun r => .refl r.bag, .trans⟩

theorem onSession_grows {α : Type} (a : Act σ α) : (growing raws).Holds (onSession a) :=
  Bound.holds_free.mpr fun r => .refl r.bag

theorem store_grows {key : String} (declared : DeclaredIn raws key) (v : Json) :
    (growing raws).Holds (store key v : Exec σ Unit) :=
  Bound.holds_free.mpr fun _ => .set v declared

theorem Called.grown {run : Json} {alias_ : Option String} {r q : Run σ} {x : Except Failure Unit}
    (ended : Called c run alias_ r x q) (declared : ∀ key, alias_ = some key → DeclaredIn raws key) :
    r.bag.Grown (DeclaredIn raws) q.bag := by
  cases ended with
  | refused => exact .refl r.bag
  | failed => exact .refl r.bag
  | answered given named answer => exact .withAnswer _ .result declared

variable [Browser σ]

theorem roomy_growing : Roomy (.free .any) (growing (σ := σ) raws) where
  reads := Browser.reads_any
  session r _ _ := .refl r.bag
  rest r _ _ _ := .refl r.bag
  may _ := trivial

theorem acts_growing : Acts (growing (σ := σ) raws) where
  click _ _ := onSession_grows _
  hover _ := onSession_grows _
  fill _ _ := onSession_grows _
  typeText _ _ _ := onSession_grows _
  press _ _ := onSession_grows _
  setChecked _ _ := onSession_grows _
  selectOptions _ _ := onSession_grows _
  attachFiles _ _ := onSession_grows _
  scrollIntoView _ := onSession_grows _
  scrollPage _ := onSession_grows _
  screenshot _ _ := onSession_grows _
  awaitResponse _ _ := onSession_grows _
  typed v := store_grows .typed v
  got v := store_grows .got v

theorem reading_grows {raw : Json} (occurs : OccursIn raws raw) :
    (growing (σ := σ) raws).Holds (reading c raw) := by
  refine reading_holds (fun fs _ => ?_) (fun fs run same call => ?_) (fun _ => trivial) fun _ _ _ => trivial
  · refine routeStep_holds (fun s => ?_) fun _ _ _ _ _ => trivial
    exact route_holds (fun _ => onSession_grows _) (fun _ => onSession_grows _) trivial s
  · refine Bound.holds_free.mpr fun r => ?_
    exact (runFunction_called run _ r).grown fun key named => .alias_ (same ▸ occurs) call named

/-- The actions of a loop that names its parts occur where the loop does. -/
theorem loop_occurs {raw : Json} {a : Action} {s : ForEachSpec} {r q : Run σ} (tidy : raw.Tidy)
    (named : ∀ parts, raw.field? "forEach" ≠ some (.arr parts)) (occurs : OccursIn raws raw)
    (read : reading c raw r = (.ok (some a), q)) (loop : a.forEach = some s) :
    ∀ x ∈ s.actions, OccursIn raws x := by
  obtain ⟨fs, rfl, decoded⟩ := reading_ok read
  obtain ⟨t, written, ⟨_, same⟩ | ⟨listed, _⟩⟩ := loop_read tidy decoded loop
  · exact fun x member => .nested occurs ⟨t, written, same ▸ member⟩
  · obtain ⟨v, found, decoded⟩ := Option.bind_eq_some_iff.mp written
    cases v with
    | obj parts => exact absurd ⟨parts, found⟩ listed
    | arr parts => exact absurd found (named parts)
    | null | bool | int | float | str => cases decoded

/-- A run of actions forgets no name and adds only declared ones, also when it fails. Whenever a call
stores its answer, the answer stands under the usual name as well as under the alias. -/
theorem names_grow (c : Setting) (base : Locator) (tidy : ∀ raw ∈ raws, raw.Tidy)
    (named : ∀ x, OccursIn raws x → ∀ parts, x.field? "forEach" ≠ some (.arr parts)) (r : Run σ) :
    r.bag.Grown (DeclaredIn raws) (raws.forM (action c base) r).2.bag ∧
      ∀ run written (s : Run σ), (∃ e, (runFunction c run written s).1 = .error e ∧
          (runFunction c run written s).2.bag = s.bag) ∨
        ∃ v, (runFunction c run written s).1 = .ok () ∧
          ∀ key, key = resultKey ∨ aliasOf written = some key →
            (runFunction c run written s).2.bag.get? key = some v := by
  constructor
  · -- The invariant that goes into the loops is that a template occurs in the list.
    have each : ∀ raw ∈ raws, (growing (σ := σ) raws).Holds (action c base raw) := fun raw member =>
      action_holds roomy_growing acts_growing (P := OccursIn raws) (fun _ => reading_grows)
        (fun x occurs _ _ _ _ read loop => loop_occurs (occurs.tidy tidy) (named x occurs) occurs read loop)
        raw (.top member) base
    exact (Bound.Holds.forM raws each).1 r
  · intro run written s
    have ended := runFunction_called (c := c) run written s
    generalize runFunction c run written s = out at ended
    obtain ⟨x, q⟩ := out
    cases ended with
    | refused => exact .inl ⟨_, rfl, rfl⟩
    | failed => exact .inl ⟨_, rfl, rfl⟩
    | answered => exact .inr ⟨_, rfl, fun key own => Bag.get?_withAnswer own⟩

/-- A call, and a loop over the paragraphs that makes one more. -/
def callsByRow : List Json :=
  [.obj [("run", .str "token"), ("as", .str " first ")],
    .obj [("forEach", .obj [("items", .str "p"),
      ("actions", .arr [.obj [("run", .str "token"), ("as", .str "inner")]])])]]

theorem callsByRow_tidy : ∀ raw ∈ callsByRow, raw.Tidy := by
  simp [callsByRow, Json.Tidy, Json.TidyItems, Json.TidyFields, Fields.keys]

theorem callsByRow_named {x : Json} (occurs : OccursIn callsByRow x) (parts : List Json) :
    x.field? "forEach" ≠ some (.arr parts) := by
  have known : x ∈ callsByRow ++ [.obj [("run", .str "token"), ("as", .str "inner")]] := by
    induction occurs with
    | top member => exact List.mem_append_left _ member
    | @nested x raw outer listed ih =>
      obtain ⟨t, written, member⟩ := listed
      simp only [callsByRow, List.cons_append, List.nil_append, List.mem_cons, List.not_mem_nil,
        or_false] at ih
      rcases ih with rfl | rfl | rfl
      · cases written
      · cases written
        exact List.mem_append_right _ member
      · cases written
  simp only [callsByRow, List.cons_append, List.nil_append, List.mem_cons, List.not_mem_nil,
    or_false] at known
  rcases known with rfl | rfl | rfl
  all_goals simp [Json.field?, Fields.get?]

/-- The calls leave three names. -/
theorem callsByRow_names :
    (callsByRow.forM (action tokenSetting .page) twoParagraphs).2.bag.keys =
        ["resultFunc", "first", "inner"] ∧
      twoParagraphs.bag.Grown (DeclaredIn callsByRow)
        (callsByRow.forM (action tokenSetting .page) twoParagraphs).2.bag :=
  ⟨by decide +kernel,
    (names_grow tokenSetting .page callsByRow_tidy (fun _ => callsByRow_named) twoParagraphs).1⟩

end Exec
end PageSpec
