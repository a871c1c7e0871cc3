import PageSpec.DevTools.Session
import PageSpec.Proofs.Effect
import PageSpec.Proofs.Network.History
/-!
Turning interception on. The first rule that a session is given asks the browser to pause requests, and
nothing asks a second time: if the browser refuses, that call fails, but every later one succeeds although
nothing is intercepted. So a successful call is to be relied on exactly if the browser agrees the one time
it is asked, or if no other rule follows the first.
-/
namespace PageSpec

/-- Whether a change of the rules is a new rule. -/
def Network.Revision.isAdd : Network.Revision → Bool
  | .add _ => true
  | .remove _ => false

namespace DevTools.Session
open Network (Revision Rule RouteTable)

/-- Makes a change of the rules. -/
def revise : Revision → Act Session Unit
  | .add rule => Browser.route rule
  | .remove source => Browser.unroute source

/-- The session after some changes of the rules, whatever came of each. -/
def after (h : List Revision) (s : Session) : Session := h.foldl (fun s c => (revise c s).2) s

/-- The browser agrees to pause requests if it is asked next. -/
def Agrees (s : Session) : Prop := ∃ data, s.peer s.sent.length .pauseRequests = .result data

/-- The browser has been asked to pause requests and has agreed. -/
def Granted (s : Session) : Prop :=
  ∃ k data, s.sent[k]? = some .pauseRequests ∧ s.peer k .pauseRequests = .result data

/-- Somebody answers when a request is paused. -/
def Attending (s : Session) : Prop :=
  ∀ request url, (notice (.paused request url) s).2.sent = s.sent ++ [answerTo s.routes request url]

/-- Requests are paused, and paused requests are answered. -/
structure Intercepting (s : Session) : Prop where
  granted : Granted s
  attending : Attending s

/-- Whenever a rule is accepted, interception is on. -/
def Truthful (s : Session) (h : List Revision) : Prop :=
  ∀ earlier rule later, h = earlier ++ .add rule :: later →
    (revise (.add rule) (after earlier s)).1 = .ok () → Intercepting (after (earlier ++ [.add rule]) s)

/-! ## Steps -/

section
variable {s : Session}

theorem exchange_apply (c : Command) (s : Session) :
    exchange c s = (.ok (s.peer s.sent.length c), { s with sent := s.sent ++ [c] }) := rfl

theorem tell_apply (c : Command) (s : Session) :
    tell c s = (match s.peer s.sent.length c with
      | .result _ => .ok ()
      | .failure code text => .error (.session (.refused code text))
      | .silence => .error (.session .noReply), { s with sent := s.sent ++ [c] }) := by
  rw [tell, request, Act.bind_apply, Act.bind_ok (exchange_apply c s)]
  cases s.peer s.sent.length c <;> rfl

theorem notice_attended (attended : s.interception = .attended) (request url : String) :
    notice (.paused request url) s =
      (.ok (), { s with sent := s.sent ++ [answerTo s.routes request url] }) := by
  obtain ⟨_, _, _, _, _, _, _, _⟩ := s
  cases attended
  rfl

theorem notice_alone (alone : s.interception ≠ .attended) (request url : String) :
    notice (.paused request url) s = (.ok (), s) := by
  obtain ⟨_, _, _, _, _, _, _, stage⟩ := s
  cases stage with
  | attended => exact absurd rfl alone
  | untried | unattended => rfl

theorem attending_iff : Attending s ↔ s.interception = .attended := by
  constructor
  · intro attending
    by_contra alone
    have sent := attending "" ""
    rw [notice_alone alone] at sent
    simp at sent
  · intro attended request url
    rw [notice_attended attended]

/-- The session once a rule is registered and the browser is asked to pause requests. -/
def asked (s : Session) (rule : Rule) : Session :=
  { s with routes := s.routes.add rule, sent := s.sent ++ [.pauseRequests] }

/-- The first rule asks the browser to pause requests. -/
theorem route_asks (untried : s.interception = .untried) (rule : Rule) :
    revise (.add rule) s = (tell .pauseRequests >>= fun _ =>
      modify fun s => { s with interception := .attended })
        { s with routes := s.routes.add rule, interception := .unattended } := by
  obtain ⟨_, _, _, _, _, _, _, _⟩ := s
  cases untried
  rfl

theorem route_agreed (untried : s.interception = .untried) (agrees : Agrees s) (rule : Rule) :
    revise (.add rule) s = (.ok (), { s.asked rule with interception := .attended }) := by
  obtain ⟨data, agreed⟩ := agrees
  rw [route_asks untried, Act.bind_apply, tell_apply]
  simp only [agreed]
  rfl

theorem route_refused (untried : s.interception = .untried) (refuses : ¬ Agrees s) (rule : Rule) :
    ∃ e, revise (.add rule) s = (.error e, { s.asked rule with interception := .unattended }) := by
  rw [route_asks untried, Act.bind_apply, tell_apply]
  cases reply : s.peer s.sent.length .pauseRequests with
  | result data => exact absurd ⟨data, reply⟩ refuses
  | failure code text => exact ⟨_, rfl⟩
  | silence => exact ⟨_, rfl⟩

/-- Without a first rule there is nothing to ask for, and after it nothing is asked again. -/
theorem revise_settled {c : Revision} (settled : s.interception = .untried → c.isAdd = false) :
    revise c s = (.ok (), { s with routes := s.routes.revise c }) := by
  cases c with
  | remove source => rfl
  | add rule =>
    obtain ⟨_, _, _, _, _, _, _, stage⟩ := s
    cases stage with
    | untried => cases settled rfl
    | attended | unattended => rfl

end

/-! ## Sequences of changes -/

theorem after_append (earlier later : List Revision) (s : Session) :
    after (earlier ++ later) s = after later (after earlier s) := by
  rw [after, List.foldl_append]
  rfl

theorem after_cons (c : Revision) (h : List Revision) (s : Session) :
    after (c :: h) s = after h (revise c s).2 := rfl

/-- Before the first rule and after it, changes concern the rules alone. -/
theorem after_settled {h : List Revision} {s : Session}
    (settled : s.interception = .untried → ∀ c ∈ h, c.isAdd = false) :
    after h s = { s with routes := h.foldl RouteTable.revise s.routes } := by
  induction h generalizing s with
  | nil => rfl
  | cons c h ih =>
    rw [after_cons, revise_settled fun untried => settled untried c List.mem_cons_self]
    exact ih (s := { s with routes := s.routes.revise c })
      fun untried d member => settled untried d (List.mem_cons_of_mem c member)

/-- Changes that bring rules begin with some that bring none. -/
theorem split_first {h : List Revision} (brings : 0 < h.countP (·.isAdd)) : ∃ idle rule later,
    h = idle ++ .add rule :: later ∧ (∀ c ∈ idle, c.isAdd = false) ∧
      h.countP (·.isAdd) = later.countP (·.isAdd) + 1 := by
  obtain ⟨first, found⟩ : ∃ c, h.find? (·.isAdd) = some c :=
    Option.isSome_iff_exists.mp (List.find?_isSome.mpr (List.countP_pos_iff.mp brings))
  obtain ⟨adds, idle, later, rfl, before⟩ := List.find?_eq_some_iff_append.mp found
  have bare : ∀ c ∈ idle, c.isAdd = false := fun c member => by simpa using before c member
  cases first with
  | remove source => cases adds
  | add rule =>
    refine ⟨idle, rule, later, rfl, bare, ?_⟩
    have nothing : idle.countP (·.isAdd) = 0 := List.countP_eq_zero.mpr fun c member => by simp [bare c member]
    rw [List.countP_append, nothing, List.countP_cons_of_pos rfl, Nat.zero_add]

section
variable {s : Session} {idle : List Revision}

/-- What comes of the first rule is what stays. -/
theorem after_add (untried : s.interception = .untried) (rule : Rule) (later : List Revision) :
    (Agrees s → Intercepting (after (.add rule :: later) s)) ∧
      (¬ Agrees s → (after (.add rule :: later) s).interception = .unattended) := by
  constructor
  · intro agrees
    rw [after_cons, route_agreed untried agrees, after_settled (by simp)]
    obtain ⟨data, agreed⟩ := agrees
    exact ⟨⟨s.sent.length, data, by simp [asked], agreed⟩, attending_iff.mpr rfl⟩
  · intro refuses
    obtain ⟨e, failed⟩ := route_refused untried refuses rule
    rw [after_cons, failed, after_settled (by simp)]

theorem after_first (untried : s.interception = .untried) (bare : ∀ c ∈ idle, c.isAdd = false)
    (rule : Rule) (later : List Revision) :
    (Agrees s → Intercepting (after (idle ++ .add rule :: later) s)) ∧
      (¬ Agrees s → (after (idle ++ .add rule :: later) s).interception = .unattended) := by
  rw [after_append, after_settled fun _ => bare]
  exact after_add (s := { s with routes := idle.foldl RouteTable.revise s.routes }) untried rule later

/-- The first rule is not accepted by a browser that refuses. -/
theorem first_rejected (untried : s.interception = .untried) (refuses : ¬ Agrees s)
    (bare : ∀ c ∈ idle, c.isAdd = false) (rule : Rule) : (revise (.add rule) (after idle s)).1 ≠ .ok () := by
  rw [after_settled fun _ => bare]
  obtain ⟨e, failed⟩ := route_refused (s := { s with routes := idle.foldl RouteTable.revise s.routes })
    untried refuses rule
  rw [failed]
  nofun

/-- Accepted rules can be relied on exactly if the browser agrees the one time that it is asked, or no
other rule follows the first. -/
theorem truthful_iff (untried : s.interception = .untried) (h : List Revision) :
    Truthful s h ↔ Agrees s ∨ h.countP (·.isAdd) ≤ 1 := by
  constructor
  · intro truthful
    by_contra fails
    obtain ⟨refuses, many⟩ := not_or.mp fails
    obtain ⟨idle, rule, others, rfl, bare, count⟩ := split_first (by omega : 0 < h.countP (·.isAdd))
    obtain ⟨between, again, rest, rfl, -⟩ := split_first (by omega : 0 < others.countP (·.isAdd))
    have before := (after_first untried bare rule between).2 refuses
    have accepted : (revise (.add again) (after (idle ++ .add rule :: between) s)).1 = .ok () := by
      rw [revise_settled (by simp [before])]
    have on := truthful (idle ++ .add rule :: between) again rest (by simp) accepted
    have stays : (after (idle ++ .add rule :: between ++ [.add again]) s).interception = .unattended := by
      rw [List.append_assoc, List.cons_append]
      exact (after_first untried bare rule _).2 refuses
    cases stays.symm.trans (attending_iff.mp on.attending)
  · rintro holds earlier rule later rfl accepted
    by_cases agrees : Agrees s
    · obtain ⟨idle, first, others, same, bare, -⟩ :=
        split_first (by simp [Revision.isAdd] : 0 < (earlier ++ [Revision.add rule]).countP (·.isAdd))
      rw [same]
      exact (after_first untried bare first _).1 agrees
    · -- The browser refuses, so this is the first rule, and it cannot have been accepted.
      have few := holds.resolve_left agrees
      rw [List.countP_append, List.countP_cons_of_pos rfl] at few
      have nothing : earlier.countP (·.isAdd) = 0 := by omega
      have bare : ∀ c ∈ earlier, c.isAdd = false := fun c member => by
        simpa using List.countP_eq_zero.mp nothing c member
      exact absurd accepted (first_rejected untried agrees bare rule)

end

/-- A session just begun. -/
def opened (peer : Nat → Command → Reply) : Session :=
  ⟨.default, ⟨"tab", "frame"⟩, peer, [], [], "about:blank", .empty, .untried⟩

/-- With a browser that agrees, rules may come and go as they like. -/
theorem agreeing_truthful :
    (opened fun _ _ => .result (.obj [])).interception = .untried ∧
      Truthful (opened fun _ _ => .result (.obj []))
        [.add ⟨"**", .any, .abort .failed⟩, .remove "**", .add ⟨"*", .any, .abort .aborted⟩] :=
  ⟨rfl, (truthful_iff rfl _).mpr (.inl ⟨.obj [], rfl⟩)⟩

/-- A browser refuses to pause requests. The second rule is accepted all the same; the browser is not
asked again. -/
theorem refusing_untruthful :
    let s := opened fun _ _ => .failure 1 "no fetch"
    let first : Revision := .add ⟨"**", .any, .abort .failed⟩
    let second : Revision := .add ⟨"*", .any, .abort .failed⟩
    (revise first s).1 = .error (.session (.refused 1 "no fetch")) ∧
      (revise second (after [first] s)).1 = .ok () ∧ (after [first, second] s).sent = [.pauseRequests] ∧
      ¬ Truthful s [first, second] := by
  refine ⟨rfl, rfl, rfl, fun truthful => ?_⟩
  obtain ⟨k, data, -, agreed⟩ := (truthful [_] _ [] rfl rfl).granted
  cases agreed

end DevTools.Session
end PageSpec
