import PageSpec.Proofs.DevTools.Interception
import PageSpec.Proofs.Text.Base64
/-!
Answering paused requests. The reports of paused requests queue up until their turn comes, and rules may
come and go in between. Each report is answered by one command, in the order of the reports, as the rules
stand when its turn comes; what the browser replies to an answer is of no account.
-/
namespace PageSpec.DevTools
open Network (Canned AbortReason Revision Rule RouteTable)
open Session (revise notice answerTo Granted)

/-- The request that a command answers. -/
def Command.answered? : Command → Option String
  | .fulfill request _ | .refuse request _ | .proceed request => some request
  | _ => none

/-- The answers that a session has sent, oldest first. -/
def Session.answers (s : Session) : List Command := s.sent.filter (·.answered?.isSome)

/-- A command answers a paused request as the history of the rules asks for: it carries the response or
the reason of the rule that decides about the URL, and lets the request pass if no live rule admits it. -/
inductive Answers (h : List Revision) (request url : String) (c : Command) : Prop
  | fulfilled (rule : Rule) (response : Canned) (body : String) (decides : RouteTable.Decides url rule h)
    (action : rule.action = .fulfill response)
    (bytes : Text.Base64.decode? body.toList = some response.body)
    (method : c.method = "Fetch.fulfillRequest")
    (params : c.params = [("requestId", .str request), ("responseCode", .int response.status),
      ("responseHeaders", .arr (response.effectiveHeaders.map fun (name, value) =>
        .obj [("name", .str name), ("value", .str value)])),
      ("body", .str body)])
  | refused (rule : Rule) (reason : AbortReason) (decides : RouteTable.Decides url rule h)
    (action : rule.action = .abort reason) (method : c.method = "Fetch.failRequest")
    (params : c.params = [("requestId", .str request), ("errorReason", .str reason.protocolWord)])
  | passed (free : ∀ rule ∈ RouteTable.live h, rule.pattern.admits url = false)
    (method : c.method = "Fetch.continueRequest") (params : c.params = [("requestId", .str request)])

/-- A session, and the reported requests whose turn is still to come, oldest first. -/
structure Desk where
  session : Session
  waiting : List (String × String)

/-- What may happen next: the rules change, the browser reports a paused request and its URL, or the
oldest report has its turn. -/
inductive Turn where
  | revise (c : Revision)
  | paused (request url : String)
  | answer
  deriving DecidableEq, Repr

namespace Desk

/-- A browser pauses requests only after it has agreed to. -/
inductive Step : Desk → Turn → Desk → Prop
  | revise {s q} (c : Revision) : Step ⟨s, q⟩ (.revise c) ⟨(revise c s).2, q⟩
  | paused {s q} (request url : String) (granted : Granted s) :
    Step ⟨s, q⟩ (.paused request url) ⟨s, q ++ [(request, url)]⟩
  | answer {s q} (request url : String) :
    Step ⟨s, (request, url) :: q⟩ .answer ⟨(notice (.paused request url) s).2, q⟩

/-- Turns one after the other, in any order. -/
inductive Run : Desk → List Turn → Desk → Prop
  | done (d : Desk) : Run d [] d
  | turn {d e f : Desk} {t : Turn} {ts : List Turn} (first : Step d t e) (rest : Run e ts f) :
    Run d (t :: ts) f

end Desk

/-- The reports among some turns. -/
def reports : List Turn → List (String × String)
  | [] => []
  | .paused request url :: ts => (request, url) :: reports ts
  | _ :: ts => reports ts

/-- The histories of the rules at which reports have their turn; so far it is the one given. -/
def moments : List Revision → List Turn → List (List Revision)
  | _, [] => []
  | h, .revise c :: ts => moments (h ++ [c]) ts
  | h, .paused _ _ :: ts => moments h ts
  | h, .answer :: ts => h :: moments h ts

theorem reports_append (ts us : List Turn) : reports (ts ++ us) = reports ts ++ reports us := by
  induction ts with
  | nil => rfl
  | cons t ts ih => cases t <;> simp [reports, ih]

theorem reports_replicate (n : Nat) : reports (List.replicate n .answer) = [] := by
  induction n with
  | zero => rfl
  | succ n ih => exact ih

/-! ## Single answers -/

/-- The answer that the rules yield is the one that their history asks for. -/
theorem answerTo_answers (h : List Revision) (request url : String) :
    Answers h request url (answerTo (.after h) request url) := by
  rw [answerTo]
  cases found : (RouteTable.after h).find? url with
  | none => exact .passed (RouteTable.find?_eq_none_iff.mp found) rfl rfl
  | some rule =>
    have decides := RouteTable.find?_eq_some_iff.mp found
    rw [Option.map_some]
    cases action : rule.action with
    | fulfill response =>
      have bytes : Text.Base64.decode? (String.ofList (Text.Base64.encode response.body)).toList =
          some response.body := by rw [String.toList_ofList, Text.Base64.decode?_encode]
      exact .fulfilled rule response _ decides action bytes rfl rfl
    | abort reason => exact .refused rule reason decides action rfl rfl

theorem answered?_answerTo (routes : RouteTable) (request url : String) :
    (answerTo routes request url).answered? = some request := by
  rw [answerTo]
  split <;> rfl

theorem Session.answers_snoc_answer {s s' : Session} {c : Command} {request : String}
    (sent : s'.sent = s.sent ++ [c]) (answers : c.answered? = some request) :
    s'.answers = s.answers ++ [c] := by
  simp [Session.answers, sent, answers]

theorem Session.answers_snoc_other {s s' : Session} {c : Command}
    (sent : s'.sent = s.sent ++ [c]) (other : c.answered? = none) : s'.answers = s.answers := by
  simp [Session.answers, sent, other]

/-- Whoever had not asked before is granted only what the browser has just agreed to. -/
theorem Session.agrees_of_granted {s s' : Session} (sent : s'.sent = s.sent ++ [.pauseRequests])
    (same : s'.peer = s.peer) (unasked : .pauseRequests ∉ s.sent) (granted : Granted s') : Agrees s := by
  obtain ⟨k, data, asked, agreed⟩ := granted
  rw [sent] at asked
  have late : s.sent.length ≤ k := by
    by_contra early
    rw [List.getElem?_append_left (by omega)] at asked
    exact unasked (List.mem_of_getElem? asked)
  obtain ⟨bound, -⟩ := List.getElem?_eq_some_iff.mp asked
  have last : k = s.sent.length := by
    rw [List.length_append, List.length_singleton] at bound
    omega
  exact ⟨data, last ▸ same ▸ agreed⟩

/-! ## Steps -/

namespace Desk

/-- The rules are those of their history, somebody attends as soon as a report may come, and nothing has
been sent but answers and what asks for reports. -/
structure Sound (h : List Revision) (d : Desk) : Prop where
  routes : d.session.routes = .after h
  unasked : d.session.interception = .untried → .pauseRequests ∉ d.session.sent
  heard : Granted d.session ∨ d.waiting ≠ [] → d.session.interception = .attended
  others : ∀ c ∈ d.session.sent, c.answered? = none → c = .pauseRequests

variable {h : List Revision} {s : Session} {q : List (String × String)}

/-- A change of the rules extends their history and answers nobody. -/
theorem Sound.revise (sound : Sound h ⟨s, q⟩) (c : Revision) :
    Sound (h ++ [c]) ⟨(Session.revise c s).2, q⟩ ∧ (Session.revise c s).2.answers = s.answers := by
  have routes : s.routes.revise c = .after (h ++ [c]) := by rw [RouteTable.after_snoc, sound.routes]
  by_cases settled : s.interception = .untried → c.isAdd = false
  · rw [Session.revise_settled settled]
    exact ⟨⟨routes, sound.unasked, sound.heard, sound.others⟩, rfl⟩
  · obtain ⟨untried, adds⟩ := Classical.not_imp.mp settled
    cases c with
    | remove source => exact absurd rfl adds
    | add rule =>
      have still : (s.asked rule).answers = s.answers := Session.answers_snoc_other rfl rfl
      have others : ∀ c ∈ (s.asked rule).sent, c.answered? = none → c = .pauseRequests := fun c sent none =>
        (List.mem_append.mp sent).elim (sound.others c · none) List.mem_singleton.mp
      by_cases agrees : Session.Agrees s
      · rw [Session.route_agreed untried agrees]
        exact ⟨⟨routes, fun stage => (by cases stage), fun _ => rfl, others⟩, still⟩
      · obtain ⟨e, failed⟩ := Session.route_refused untried agrees rule
        rw [failed]
        refine ⟨⟨routes, fun stage => (by cases stage), fun heard => ?_, others⟩, still⟩
        obtain granted | some := heard
        · refine absurd (Session.agrees_of_granted ?_ ?_ (sound.unasked untried) granted) agrees <;> rfl
        · cases untried.symm.trans (sound.heard (.inr some))

theorem Sound.paused (sound : Sound h ⟨s, q⟩) (granted : Granted s) (report : String × String) :
    Sound h ⟨s, q ++ [report]⟩ :=
  ⟨sound.routes, sound.unasked, fun _ => sound.heard (.inl granted), sound.others⟩

/-- The oldest report is answered as the rules stand. -/
theorem Sound.answer {request url : String} (sound : Sound h ⟨s, (request, url) :: q⟩) :
    Sound h ⟨(notice (.paused request url) s).2, q⟩ ∧
      ∃ c, (notice (.paused request url) s).2.answers = s.answers ++ [c] ∧
        c.answered? = some request ∧ Answers h request url c := by
  have attended : s.interception = .attended := sound.heard (.inr (by simp))
  have names := answered?_answerTo s.routes request url
  have right := answerTo_answers h request url
  rw [Session.notice_attended attended]
  refine ⟨⟨sound.routes, fun untried => ?_, fun _ => attended, fun c sent none => ?_⟩, _,
    Session.answers_snoc_answer rfl names, names, ?_⟩
  · cases attended.symm.trans untried
  · obtain before | last := List.mem_append.mp sent
    · exact sound.others c before none
    · rw [List.mem_singleton.mp last, names] at none
      cases none
  · rwa [← sound.routes] at right

/-! ## Runs -/

/-- During a run the waiting requests and those reported since have their turns one after the other. -/
theorem Run.answered {d e : Desk} {ts : List Turn} (run : Run d ts e) {h : List Revision}
    (sound : Sound h d) : ∃ new, e.session.answers = d.session.answers ++ new ∧
      List.Forall₂ (fun ((request, url), now) c => Answers now request url c)
        ((d.waiting ++ reports ts).zip (moments h ts)) new ∧
      new.filterMap Command.answered? ++ e.waiting.map Prod.fst = (d.waiting ++ reports ts).map Prod.fst := by
  induction run generalizing h with
  | done d => exact ⟨[], by simp, by simp [reports, moments], by simp [reports]⟩
  | turn first rest ih =>
    cases first with
    | revise c =>
      obtain ⟨next, same⟩ := sound.revise c
      rw [← same]
      exact ih next
    | paused request url granted =>
      simpa [reports, moments] using ih (sound.paused granted (request, url))
    | answer request url =>
      obtain ⟨next, c, grown, names, right⟩ := sound.answer
      obtain ⟨new, later, rightly, once⟩ := ih next
      refine ⟨c :: new, by simp [later, grown], .cons right rightly, ?_⟩
      rw [List.filterMap_cons, names]
      exact congrArg (request :: ·) once

theorem Run.sound {d e : Desk} {ts : List Turn} (run : Run d ts e) (sound : ∃ h, Sound h d) :
    ∃ now, Sound now e := by
  induction run with
  | done d => exact sound
  | turn first rest ih =>
    obtain ⟨h, sound⟩ := sound
    cases first with
    | revise c => exact ih ⟨_, (sound.revise c).1⟩
    | paused request url granted => exact ih ⟨_, sound.paused granted _⟩
    | answer request url => exact ih ⟨_, sound.answer.1⟩

theorem Run.append {d e f : Desk} {ts us : List Turn} (run : Run d ts e) (more : Run e us f) :
    Run d (ts ++ us) f := by
  induction run with
  | done d => exact more
  | turn first rest ih => exact .turn first (ih more)

/-- Given enough turns, nobody waits. -/
theorem run_answers (s : Session) (q : List (String × String)) :
    ∃ e, Run ⟨s, q⟩ (List.replicate q.length .answer) e ∧ e.waiting = [] := by
  induction q generalizing s with
  | nil => exact ⟨_, .done _, rfl⟩
  | cons report q ih =>
    obtain ⟨e, run, nobody⟩ := ih (notice (.paused report.1 report.2) s).2
    exact ⟨e, .turn (.answer report.1 report.2) run, nobody⟩

/-- The reports are answered in their order, each by the rules at its turn: each has one answer or still
waits, and nothing else is sent than what asks for reports. -/
structure Answered (ts : List Turn) (d : Desk) : Prop where
  rightly : List.Forall₂ (fun ((request, url), now) c => Answers now request url c)
    ((reports ts).zip (moments [] ts)) d.session.answers
  once : d.session.answers.filterMap Command.answered? ++ d.waiting.map Prod.fst =
    (reports ts).map Prod.fst
  others : ∀ c ∈ d.session.sent, c.answered? = none → c = .pauseRequests

section
variable {installed : String → Bool} {config : Config} {tab : Tab} {peer : Nat → Command → Reply}

theorem sound_of_launch (launched : Session.launch installed config tab peer = .ok s) :
    Sound [] ⟨s, []⟩ ∧ s.answers = [] := by
  rw [Session.launch] at launched
  split at launched
  · cases launched
    exact ⟨⟨rfl, nofun, fun heard => by simp [Granted] at heard, nofun⟩, rfl⟩
  · cases launched

theorem Run.answered_of_launch {d : Desk} {ts : List Turn}
    (launched : Session.launch installed config tab peer = .ok s) (run : Run ⟨s, []⟩ ts d) :
    Answered ts d := by
  obtain ⟨sound, nobody⟩ := sound_of_launch launched
  obtain ⟨new, same, rightly, once⟩ := run.answered sound
  obtain ⟨now, last⟩ := run.sound ⟨[], sound⟩
  rw [nobody, List.nil_append] at same
  exact ⟨same ▸ rightly, same ▸ once, last.others⟩

/-- Whatever comes between, paused requests are answered once and rightly, and in the end all of them. -/
theorem paused_answered {d : Desk} {ts : List Turn}
    (launched : Session.launch installed config tab peer = .ok s) (run : Run ⟨s, []⟩ ts d) :
    Answered ts d ∧ ∃ e, Run d (List.replicate d.waiting.length .answer) e ∧
      Answered (ts ++ List.replicate d.waiting.length .answer) e ∧
      e.session.answers.filterMap Command.answered? = (reports ts).map Prod.fst := by
  obtain ⟨e, more, nobody⟩ := run_answers d.session d.waiting
  have answered := (run.append more).answered_of_launch launched
  have all := answered.once
  rw [nobody, List.map_nil, List.append_nil, reports_append, reports_replicate, List.append_nil] at all
  exact ⟨run.answered_of_launch launched, e, more, answered, all⟩

end

/-- A rule that comes after a report but before its turn decides, one that goes before the turn does not;
that the browser fails each answer changes nothing. -/
theorem late_rule_answers :
    let peer : Nat → Command → Reply := fun _ c =>
      if c = .pauseRequests then .result (.obj []) else .failure 1 "gone"
    let ts : List Turn := [.revise (.add ⟨"**", .any, .abort .failed⟩), .paused "1" "http://a/",
      .revise (.add ⟨"http://a/", .exact "http://a/", .fulfill (.ofText "hi")⟩), .paused "2" "http://a/",
      .answer, .revise (.remove "http://a/"), .answer]
    ∃ s d, Session.launch (fun _ => true) .default ⟨"tab", "frame"⟩ peer = .ok s ∧ Run ⟨s, []⟩ ts d ∧
      d.session.sent = [.pauseRequests, .fulfill "1" (.ofText "hi"), .refuse "2" .failed] ∧
      Answered ts d := by
  intro peer ts
  have granted (s : Session) (sent : s.sent = [.pauseRequests]) (same : s.peer = peer) : Granted s :=
    ⟨0, .obj [], by rw [sent]; rfl, by rw [same]; rfl⟩
  obtain ⟨d, run, sent⟩ : ∃ d, Run ⟨Session.opened peer, []⟩ ts d ∧
      d.session.sent = [.pauseRequests, .fulfill "1" (.ofText "hi"), .refuse "2" .failed] :=
    ⟨_, .turn (.revise _) <| .turn (.paused _ _ (granted _ rfl rfl)) <| .turn (.revise _) <|
      .turn (.paused _ _ (granted _ rfl rfl)) <| .turn (.answer _ _) <| .turn (.revise _) <|
      .turn (.answer _ _) <| .done _, rfl⟩
  have launched : Session.launch (fun _ => true) .default ⟨"tab", "frame"⟩ peer = .ok (.opened peer) := rfl
  exact ⟨_, d, launched, run, sent, (paused_answered launched run).1⟩

end Desk
end PageSpec.DevTools
