import PageSpec.Proofs.Action.Reading
import PageSpec.Proofs.Execution.Use
/-!
Actions inside actions. Reading an action keeps the names of its fields and nests nothing deeper, so
the actions of a loop are always nested less deep than the action with the loop. Running an action
only ever asks for such actions, and therefore does not depend on how the others run.
-/
namespace PageSpec

/-! ## Replacing tokens -/

/-- What replacing tokens makes of the fields of an action; the field of a loop has a rule of its
own. -/
structure Filled (b : Bag) (fs filled : Fields) : Prop where
  keys : filled.keys = fs.keys
  field : ∀ name ≠ "forEach", filled.get? name = (fs.get? name).map (interpolateValue b)
  depth : Json.depthFields filled ≤ Json.depthFields fs

theorem Filled.interpolated (b : Bag) (fs : Fields) : Filled b fs (interpolateFields b fs) :=
  ⟨keys_interpolateFields b fs, fun name _ => get?_interpolateFields b name fs,
    Nat.le_of_eq (depthFields_interpolateFields b fs)⟩

/-- A loop may be put back with its actions as they were written. -/
theorem Filled.withLoop {b : Bag} {fs loop : Fields} {written nested : Json}
    (there : fs.get? "forEach" = some written) (inside : written.field? "actions" = some nested)
    (found : Fields.get? (interpolateFields b fs) "forEach" = some (.obj loop)) :
    Filled b fs
      (Fields.set (interpolateFields b fs) "forEach" (.obj (Fields.set loop "actions" nested))) := by
  have named : "forEach" ∈ Fields.keys (interpolateFields b fs) :=
    List.mem_map.mpr ⟨_, Fields.mem_of_get? found, rfl⟩
  refine ⟨?_, fun name other => ?_, ?_⟩
  · rw [Fields.keys_set, if_pos named, keys_interpolateFields]
  · rw [Fields.get?_set, if_neg other, get?_interpolateFields]
  · have same : interpolateValue b written = .obj loop := by
      rw [get?_interpolateFields, there] at found
      exact Option.some.inj found
    have outer := Json.depth_le_depthFields (Fields.mem_of_get? there)
    have inner := Json.depth_field?_lt inside
    have loopDepth := depth_interpolateValue b written
    rw [same, Json.depth] at loopDepth
    have put := Json.depthFields_set_le loop "actions" nested
    have whole := Json.depthFields_set_le (interpolateFields b fs) "forEach"
      (.obj (Fields.set loop "actions" nested))
    rw [Json.depth, depthFields_interpolateFields] at whole
    omega

theorem fillAction_filled (b : Bag) (fs : Fields) :
    ∃ filled, fillAction b (.obj fs) = .obj filled ∧ Filled b fs filled := by
  have plain := Filled.interpolated b fs
  unfold fillAction
  rw [interpolateValue]
  cases there : (Json.obj fs).field? "forEach" with
  | none => exact ⟨_, rfl, plain⟩
  | some written =>
    cases inside : written.field? "actions" with
    | none => simp only [Option.bind_some, inside]; exact ⟨_, rfl, plain⟩
    | some nested =>
      simp only [Option.bind_some, inside]
      split
      · rename_i loop found
        exact ⟨_, rfl, .withLoop there inside found⟩
      · exact ⟨_, rfl, plain⟩

theorem Filled.lacks {b : Bag} {fs filled : Fields} {name : String} (kept : Filled b fs filled)
    (other : name ≠ "forEach") (lacking : fs.Lacks name) : filled.Lacks name := by
  intro v found
  rw [kept.field name other] at found
  obtain ⟨w, there, rfl⟩ := Option.map_eq_some_iff.mp found
  rw [lacking w there]
  rfl

namespace Exec
variable {σ : Type} [Browser σ] {c : Setting}

/-! ## Reading -/

/-- What reading comes to: nothing for an action that is idle or a mere call, and otherwise what its
fields write once their tokens are replaced. -/
theorem reading_ok {raw : Json} {o : Option Action} {r q : Run σ} (read : reading c raw r = (.ok o, q)) :
    ∃ fs, raw = .obj fs ∧ match o with
      | none => Action.hasOperation fs = false ∨ isBareRun fs = true
      | some a => Action.ofJson (fillAction q.bag (.obj fs)) = .ok a := by
  cases raw with
  | obj fs =>
    refine ⟨fs, rfl, ?_⟩
    unfold reading at read
    dsimp only at read
    by_cases idle : Action.hasOperation fs = true
    · simp only [idle, Bool.not_true, Bool.false_eq_true, ↓reduceIte] at read
      obtain ⟨_, _, _, read⟩ := Act.bind_eq_ok read
      obtain ⟨_, r₂, _, read⟩ := Act.bind_eq_ok read
      by_cases bare : isBareRun fs = true
      · simp only [bare, ↓reduceIte] at read
        cases read
        exact .inr bare
      · simp only [bare, Bool.false_eq_true, ↓reduceIte] at read
        rw [Act.bind_ok (Act.get_apply r₂)] at read
        cases decoded : Action.ofJson (fillAction r₂.bag (.obj fs)) with
        | error m => rw [decoded] at read; cases read
        | ok b => rw [decoded] at read; cases read; exact decoded
    · simp only [idle, Bool.not_false, ↓reduceIte] at read
      cases read
      exact .inl (by simpa using idle)
  | null | bool | int | float | str | arr => cases read

/-- The actions of a loop are nested less deep than the action as written. -/
theorem reading_nested {raw : Json} {a : Action} {s : ForEachSpec} {r q : Run σ}
    (read : reading c raw r = (.ok (some a), q)) (loop : a.forEach = some s) : s.LiesIn raw := by
  obtain ⟨fs, rfl, decoded⟩ := reading_ok read
  dsimp only at decoded
  obtain ⟨filled, same, kept⟩ := fillAction_filled q.bag fs
  rw [same] at decoded
  intro x inside
  have shallower := Action.forEach_liesIn decoded loop x inside
  have bound := kept.depth
  rw [Json.depth] at shallower ⊢
  omega

/-! ## Running -/

theorem forEach_congr {sub sub' : Locator → Json → Exec σ Unit} (aim : Aim) {s : ForEachSpec}
    (same : ∀ x ∈ s.actions, ∀ l, sub l x = sub' l x) : forEach sub aim s = forEach sub' aim s := by
  have body (base : Locator) : s.actions.forM (sub base) = s.actions.forM (sub' base) :=
    Act.forM_congr fun x member => same x member base
  unfold forEach
  simp only [body]

theorem operations_congr {sub sub' : Locator → Json → Exec σ Unit} (aim : Aim) {a : Action}
    (same : ∀ s, a.forEach = some s → ∀ x ∈ s.actions, ∀ l, sub l x = sub' l x) :
    operations c sub aim a = operations c sub' aim a := by
  have loop : forSome a.forEach (forEach sub aim) = forSome a.forEach (forEach sub' aim) := by
    cases found : a.forEach with
    | none => rw [forSome_none, forSome_none]
    | some s => rw [forSome_some, forSome_some, forEach_congr aim (same s found)]
  unfold operations
  rw [loop]

theorem perform_congr {sub sub' : Locator → Json → Exec σ Unit} (base : Locator) {a : Action}
    (same : ∀ s, a.forEach = some s → ∀ x ∈ s.actions, ∀ l, sub l x = sub' l x) :
    perform c sub base a = perform c sub' base a := by
  have ordered (aim : Aim) := operations_congr (c := c) aim same
  unfold perform
  simp only [ordered]

theorem actionWith_congr {sub sub' : Locator → Json → Exec σ Unit} (base : Locator) {raw : Json}
    (same : ∀ x, x.depth < raw.depth → ∀ l, sub l x = sub' l x) :
    actionWith c sub base raw = actionWith c sub' base raw := by
  funext r
  unfold actionWith
  rw [Act.bind_apply, Act.bind_apply]
  rcases read : reading c raw r with ⟨e | o, q⟩
  · rfl
  · cases o with
    | none => rfl
    | some a =>
      refine congrFun (perform_congr base fun s loop x inside l => ?_) q
      exact same x (reading_nested read loop x inside) l

/-- Any bound on the nesting will do. -/
theorem actionUpTo_stable (raw : Json) (base : Locator) (n m : Nat) (enough : raw.depth < n)
    (enough' : raw.depth < m) : actionUpTo (σ := σ) c n base raw = actionUpTo c m base raw := by
  cases n with
  | zero => omega
  | succ n =>
    cases m with
    | zero => omega
    | succ m =>
      refine actionWith_congr base fun x inside l => ?_
      exact actionUpTo_stable x l n m (by omega) (by omega)
termination_by raw.depth

/-- An action runs the actions inside it the way it is run itself. -/
theorem action_eq (base : Locator) (raw : Json) :
    action (σ := σ) c base raw = actionWith c (action c) base raw := by
  refine actionWith_congr base fun x inside l => ?_
  exact actionUpTo_stable x l raw.depth (x.depth + 1) inside (Nat.lt_succ_self _)

/-- What every template of a kind is read within, its actions run within, if the actions of its loop are
of the kind too. -/
theorem action_holds {L : Bound σ} {B : Bound (Run σ)} (room : Roomy L B) (acts : Acts B) {P : Json → Prop}
    (read : ∀ raw, P raw → B.Holds (reading c raw))
    (inner : ∀ raw, P raw → ∀ (r q : Run σ) a s, reading c raw r = (.ok (some a), q) →
      a.forEach = some s → ∀ x ∈ s.actions, P x) (raw : Json) (held : P raw) (base : Locator) :
    B.Holds (action c base raw) := by
  rw [action_eq]
  refine actionWith_holds room acts (read raw held) (fun r a q s came loop x inside l => ?_) base
  have nested : x.depth < raw.depth := reading_nested came loop x inside
  exact action_holds room acts read inner x (inner raw held r q a s came loop x inside) l
termination_by raw.depth

end Exec
end PageSpec
