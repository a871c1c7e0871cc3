import PageSpec.Execution.Checks
import PageSpec.Proofs.Bound
/-!
Failures to read an action: it is no object, or its fields do not fit. What an action comes to after it
has been read may fail in many ways, but not in these.
-/
namespace PageSpec
variable {α β s : Type}

/-- The failure is about the form of an action. -/
def Failure.isMalformed : Failure → Bool
  | .mistake (.actionShape _) | .mistake (.action _) | .mistake (.route _) => true
  | _ => false

/-- If this is a failure, it is not about the form of an action. -/
def Formed (x : Except Failure α) : Prop := ∀ e, x = .error e → e.isMalformed = false

namespace Formed

theorem ok (v : α) : Formed (.ok v) := nofun

theorem error {e : Failure} (other : e.isMalformed = false) : Formed (.error e : Except Failure α) := by
  intro e' same
  cases same
  exact other

theorem bind {x : Except Failure α} {f : α → Except Failure β} (first : Formed x)
    (rest : ∀ v, Formed (f v)) : Formed (x >>= f) := by
  intro e failed
  cases done : x with
  | error e' =>
    rw [done] at failed
    exact Except.error.inj failed ▸ first e' done
  | ok v =>
    rw [done] at failed
    exact rest v e failed

theorem mapM {f : α → Except Failure β} (each : ∀ v, Formed (f v)) : ∀ vs : List α, Formed (vs.mapM f)
  | [] => by rw [List.mapM_nil]; exact ok []
  | v :: vs => by
    rw [List.mapM_cons]
    exact (each v).bind fun w => (mapM each vs).bind fun ws => ok (w :: ws)

end Formed

/-- Moving anywhere, and failing over anything but the form of an action. -/
def Bound.formed : Bound s := ⟨.any, (·.isMalformed = false)⟩

theorem Bound.formed_lift {x : Except Failure α} (formed : Formed x) :
    (Bound.formed (s := s)).Holds (ExceptT.mk (pure x)) :=
  ⟨fun _ => trivial, fun _ e failed => formed e failed⟩

theorem Bound.formed_draw (a : Dynamic.Draw α) : Bound.formed.Holds (liftM a : Dynamic.Roll α) :=
  .of_ok (fun _ => trivial) fun d => ⟨(a d).1, rfl⟩

/-! ## Hints and conditions -/

theorem HintView.pick_formed (v : HintView) : Formed v.pick := by
  unfold pick
  split
  · split
    · exact .error rfl
    · exact .ok _
  · exact .ok _

theorem HintView.climb_formed (v : HintView) : Formed v.climb := by
  unfold climb
  split
  · split
    · exact .error rfl
    · exact .ok _
  · exact .ok _

theorem ScrollBehavior.parse_formed (w : String) : Formed (parse w) := by
  unfold parse
  split
  · exact .ok _
  · exact .error rfl

theorem SelectSpec.choice_formed (s : SelectSpec) : Formed s.choice := by
  unfold choice
  split
  · exact .ok _
  · exact .ok _
  · exact .ok _
  · exact .error rfl

theorem RequestWait.matcher_formed (w : RequestWait) : Formed w.matcher := by
  unfold matcher
  dsimp only
  split
  · exact .error rfl
  · exact .ok _

theorem ResponseWait.matcher_formed (w : ResponseWait) : Formed w.matcher := by
  unfold matcher
  split
  · exact .error rfl
  · exact .ok _

/-! ## Dynamic texts -/

namespace Dynamic

theorem coerce_formed (raw : List Char) : Formed (DataCall.coerce raw) := by
  unfold DataCall.coerce
  dsimp only
  split
  · split
    · exact .ok _
    · split
      · exact .ok _
      · exact .error rfl
  · split
    · exact .ok _
    · exact .ok _
    · exact .ok _
    · exact .ok _

theorem parse_formed (text : String) : Formed (DataCall.parse text) := by
  unfold DataCall.parse
  split
  · exact .ok _
  · exact (Formed.mapM coerce_formed _).bind fun _ => .ok _

theorem readBase_formed (s : DateSettings) (raw : List Char) : Formed (readBase s raw) := by
  have fromToday (days : Int) : Formed (
      if minDay ≤ s.now.dayNumber + days ∧ s.now.dayNumber + days ≤ maxDay then
        .ok (some (.ofDay (s.now.dayNumber + days)))
      else .error (.mistake (.dateRange (.ofList raw))) : Except Failure (Option Moment)) := by
    split
    · exact .ok _
    · exact .error rfl
  unfold readBase
  split
  · dsimp only
    split
    · exact fromToday 0
    · split
      · split
        · exact fromToday _
        · exact .error rfl
      · exact .ok _
  · split
    · exact .ok _
    · split
      · exact .ok _
      · exact .error rfl

theorem formatDate_formed (s : DateSettings) (m : Moment) (format : String) :
    Formed (formatDate s m format) := by
  unfold formatDate
  dsimp only
  split
  · exact .ok _
  · exact .error rfl

theorem renderCall_formed (s : DateSettings) (inner : List Char) :
    Bound.formed.Holds (renderCall s inner) := by
  unfold renderCall
  dsimp only
  refine .bind (Bound.formed_lift (readBase_formed s _)) fun base => ?_
  split
  · exact Bound.formed_lift (formatDate_formed s _ _)
  · refine .bind (Bound.formed_draw _) fun m => ?_
    exact Bound.formed_lift (formatDate_formed s m _)

theorem resolveCalls_formed (s : DateSettings) (cs : List Char) :
    Bound.formed.Holds (resolveCalls s cs) := by
  unfold resolveCalls
  split
  · exact .pure _
  · rename_i f found
    refine .bind (renderCall_formed s f.inner) fun text => ?_
    split
    · exact .bind (resolveCalls_formed s f.after) fun _ => .pure _
    · exact .pure _
termination_by cs.length

theorem reading_formed (o : Options) : Bound.formed.Holds o.reading := by
  refine .of_ok (fun _ => trivial) fun source => ?_
  unfold Options.reading
  split <;> exact ⟨_, rfl⟩

theorem ofRoll_formed {a : Roll α} (formed : Bound.formed.Holds a) :
    Bound.formed.Holds (Drawing.ofRoll a) :=
  ⟨fun _ => trivial, fun source => formed.2 source.dice⟩

/-- A dynamic text that cannot be made up fails over the text. -/
theorem resolve_formed (o : Options) (text : String) : Bound.formed.Holds (resolve o text) := by
  unfold resolve
  dsimp only
  split
  · exact .bind (reading_formed o) fun _ => .bind (ofRoll_formed (resolveCalls_formed _ _)) fun _ => .pure _
  · split
    · rename_i e failed
      exact .throw (parse_formed _ e failed)
    · exact .pure _
    · split
      · exact .throw rfl
      · exact .bind (reading_formed o) fun _ => .bind (ofRoll_formed (Bound.formed_draw _)) fun _ => .pure _

end Dynamic
end PageSpec
