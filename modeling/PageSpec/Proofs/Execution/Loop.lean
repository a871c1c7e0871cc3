import PageSpec.Proofs.Execution.Use
import PageSpec.Proofs.Page.Locating
import PageSpec.Proofs.Page.Unmoved
/-!
Loops on a page in memory. The items are counted once and then addressed by their positions; since no
capability moves an element, every position means the same element until the loop is over. A loop is
described by its passes: one for each item in document order, up to the first that fails.
-/
namespace PageSpec.Exec

/-! ## Passes -/

/-- The run that the actions for one item start from: the item has been scrolled to, or at least this
was tried, and the memo is the one the loop was entered with. -/
def enter (memo : Memo) (base : Locator) (r : Run Page) : Run Page :=
  { r with
    memo := memo
    session := { r.session with history := r.session.history ++ [.scrollIntoView base] } }

/-- One pass of a loop: the actions are run in order for the element at `place`, from `start` to
`finish`. Whatever is done to the session in the meantime, their base means this element alone. -/
structure Pass (sub : Locator → Json → Exec Page Unit) (base : Locator) (actions : List Json) (place : Nat)
    (start finish : Run Page) (outcome : Except Failure Unit) : Prop where
  ran : actions.forM (sub base) start = (outcome, finish)
  aimed : ∀ p, Browser.Reaches start.session p → Page.resolve p.forest base = .ok [place]
  throughout : ∀ done todo, actions = done ++ todo →
    Browser.Reaches start.session (done.forM (sub base) start).2.session

/-- The passes of a loop over the places that are left, the first of which is item number `i`, from
one run to another. Each starts from the memo of the loop and from everything else that the one before
it left; a pass that fails is the last. -/
inductive Passes (sub : Locator → Json → Exec Page Unit) (all : Locator) (actions : List Json)
    (memo : Memo) : Nat → List Nat → Run Page → Except Failure Unit → Run Page → Prop
  | finished (i : Nat) (r : Run Page) : Passes sub all actions memo i [] r (.ok ()) r
  | next {i place : Nat} {places : List Nat} {r q t : Run Page} {x : Except Failure Unit}
    (pass : Pass sub (item all i) actions place (enter memo (item all i) r) q (.ok ()))
    (rest : Passes sub all actions memo (i + 1) places { q with memo := memo } x t) :
    Passes sub all actions memo i (place :: places) r x t
  | failed {i place : Nat} {places : List Nat} {r q : Run Page} {e : Failure}
    (pass : Pass sub (item all i) actions place (enter memo (item all i) r) q (.error e)) :
    Passes sub all actions memo i (place :: places) r (.error e) { q with memo := memo }

/-! ## One pass -/

section
variable {c : Setting} {sub : Locator → Json → Exec Page Unit} {all base : Locator} {actions : List Json}

theorem scrollIntoView_leaves (l : Locator) (p : Page) :
    ((Browser.scrollIntoView l : Act Page Unit) p).2 =
      { p with history := p.history ++ [.scrollIntoView l] } :=
  (Drift.Allows.bind (D := Drift.still) (Page.located_still l).1 fun _ => .pure ()) _

theorem scrolled_apply (l : Locator) (r : Run Page) :
    onSession (tryCatch (Browser.scrollIntoView l) fun _ => pure ()) r = (.ok (), enter r.memo l r) := by
  have left := scrollIntoView_leaves l r.session
  rw [onSession_apply, Act.tryCatch_apply]
  rcases tried : (Browser.scrollIntoView l : Act Page Unit) r.session with ⟨e | _, p⟩
  · rw [tried] at left
    subst left
    rfl
  · rw [tried] at left
    subst left
    rfl

/-- What a loop does for the item that a locator means. -/
def visit (sub : Locator → Json → Exec Page Unit) (actions : List Json) (base : Locator) :
    Exec Page Unit := do
  onSession (tryCatch (Browser.scrollIntoView base) fun _ => pure ())
  keepingMemo (actions.forM (sub base))

theorem visit_apply (r : Run Page) : visit sub actions base r =
    ((actions.forM (sub base) (enter r.memo base r)).1,
      { (actions.forM (sub base) (enter r.memo base r)).2 with memo := r.memo }) := by
  unfold visit
  rw [Act.bind_ok (scrolled_apply base r)]
  rfl

/-- Sub-actions that only use their session cannot make a base mean anything else. -/
theorem pass_of_aimed (used : ∀ l v, useRun.Allows (sub l v)) {start finish : Run Page} {place : Nat}
    {outcome : Except Failure Unit} (ran : actions.forM (sub base) start = (outcome, finish))
    (aimed : Page.resolve start.session.forest base = .ok [place]) :
    Pass sub base actions place start finish outcome := by
  refine ⟨ran, fun p reached => ?_, fun done todo _ => ?_⟩
  · rw [Page.reaches_forest reached]
    exact aimed
  · exact Drift.Allows.forM done (fun v _ => used base v) start

/-! ## All passes -/

theorem visits_pass (used : ∀ l v, useRun.Allows (sub l v)) {f : Page.Forest} {memo : Memo} :
    ∀ (places : List Nat) (i : Nat) (r : Run Page), r.session.forest = f → r.memo = memo →
      (∀ j (inside : j < places.length), Page.resolve f (item all (i + j)) = .ok [places[j]]) →
      ∃ x t, (List.range' i places.length).forM (fun i => visit sub actions (item all i)) r = (x, t) ∧
        t.memo = memo ∧ Passes sub all actions memo i places r x t
  | [], i, r, _, kept, _ => ⟨_, _, rfl, kept, .finished i r⟩
  | place :: places, i, r, still, kept, aimed => by
    rw [List.length_cons, List.range'_succ, Act.forM_cons]
    rcases ran : actions.forM (sub (item all i)) (enter memo (item all i) r) with ⟨x, q⟩
    have pass : Pass sub (item all i) actions place (enter memo (item all i) r) q x := by
      refine pass_of_aimed used ran ?_
      rw [show (enter memo (item all i) r).session.forest = f from still]
      exact aimed 0 (Nat.zero_lt_succ _)
    have first : visit sub actions (item all i) r = (x, { q with memo := memo }) := by
      rw [visit_apply, kept, ran]
    cases x with
    | error e =>
      rw [Act.bind_error first]
      exact ⟨_, _, rfl, rfl, .failed pass⟩
    | ok _ =>
      rw [Act.bind_ok first]
      have left : q.session.forest = f := by
        have reached := pass.throughout actions [] (List.append_nil _).symm
        rw [ran] at reached
        exact (Page.reaches_forest reached).trans still
      obtain ⟨x, t, rest, back, passes⟩ :=
        visits_pass used places (i + 1) { q with memo := memo } left rfl fun j inside => by
          have further := aimed (j + 1) (Nat.succ_lt_succ inside)
          rw [show i + 1 + j = i + (j + 1) by omega]
          exact further
      exact ⟨x, t, rest, back, .next pass passes⟩

end

/-- A loop over the elements that its target means: they are visited one by one in document order. -/
theorem forEach_visits (c : Setting) (aim : Aim) (s : ForEachSpec) (r : Run Page) {items : String}
    {places : List Nat} (written : s.items.bind nonBlank? = some items)
    (found : Page.resolve r.session.forest (aim.scope.allOf items) = .ok places) :
    places.Pairwise (· < ·) ∧
      (places = [] → forEach (action c) aim s r =
        (.error (.notFound .items items aim.hints.describe), r)) ∧
      (places ≠ [] → ∃ x t, forEach (action c) aim s r = (x, t) ∧ t.memo = r.memo ∧
        Passes (action c) (aim.scope.allOf items) s.actions r.memo 0 places r x t) := by
  have asked : (target [s.items.bind nonBlank?] .forEach : Exec Page String) r = (.ok items, r) := by
    rw [written]
    rfl
  have located := Page.locateAll_ok found aim.hints .items
  refine ⟨Page.resolve_allOf_sorted found, fun none => ?_, fun some => ?_⟩
  · rw [if_pos none] at located
    unfold forEach
    rw [Act.bind_ok asked, Act.bind_error (onSession_still located)]
  · rw [if_neg some] at located
    unfold forEach
    rw [Act.bind_ok asked, Act.bind_ok (onSession_still located),
      Act.bind_ok (onSession_still (Page.count_ok found)), List.range_eq_range']
    refine visits_pass (action_uses c) places 0 r rfl rfl fun j inside => ?_
    rw [Nat.zero_add]
    unfold item
    rw [Page.resolve_nth found, Page.nth_ofNat inside]

/-- Two rows, one after another. -/
def twoRows : List Page.Element :=
  ["one", "two"].map fun text => .mk { Page.Traits.ofTag "li" with text := text } ⟨"", false, 0⟩ none []

/-- The rows are clicked one by one. -/
theorem forEach_visits_two_rows :
    let c : Setting := ⟨.default, default, none, Functions.noPrograms, none, ""⟩
    let clicks : ForEachSpec := ⟨some "li", [.obj [("click", .str "li")]]⟩
    let r : Run Page := .fresh (.ofDocument twoRows) default .empty
    ∃ x t, forEach (action c) ⟨.page, ⟨.none, none⟩⟩ clicks r = (x, t) ∧ t.memo = .empty ∧
      Passes (action c) (Locator.page.allOf "li") clicks.actions .empty 0 [0, 1] r x t :=
  (forEach_visits _ ⟨.page, ⟨.none, none⟩⟩ ⟨some "li", _⟩ (.fresh (.ofDocument twoRows) default .empty)
    (by decide +kernel) (eq_ok_of_toOption (by decide +kernel))).2.2 (by simp)

end PageSpec.Exec
