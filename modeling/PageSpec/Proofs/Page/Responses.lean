import Mathlib.Data.List.Induction
import PageSpec.Page.Session
import PageSpec.Proofs.Effect
/-!
Waiting for responses. Responses come in and are waited for in any order. They are numbered here as they come, so
that equal ones are told apart: the queue holds those from some number on, a wait takes the first of them that fits,
and with it goes whatever came before it. So later waits are given later responses.
-/
namespace PageSpec

/-- A response whose body is left out of account. -/
def Network.Response.bare (r : Network.Response) : Network.Response := { r with body := none }

/-- A condition on responses whose part on the body is left out of account. -/
def Network.Matcher.bare (m : Network.Matcher) : Network.Matcher := { m with bodyPart := none }

/-- URL and status of a response fit. -/
def Network.Matcher.fits (m : Network.Matcher) (r : Network.Response) : Bool := m.admitsHead r.url r.status

namespace Page
open Network (Response Matcher)

/-! ## A single wait -/

/-- What a wait makes of the queue. -/
inductive Awaited (m : Matcher) (timeout : Nat) (queue : List Response) :
    Except Failure Response → List Response → Prop
  | found {k : Nat} {r : Response} (there : queue.findIdx? m.fits = some k) (at_ : queue[k]? = some r) :
    Awaited m timeout queue (.ok r) (queue.drop (k + 1))
  | missed (absent : queue.findIdx? m.fits = none) : Awaited m timeout queue (.error (.timeout timeout m)) []

theorem nextResponse_eq (m : Matcher) : ∀ queue : List Response, nextResponse m queue =
    (queue.findIdx? m.fits).bind fun k => (queue[k]?).map fun r => (r, queue.drop (k + 1))
  | [] => rfl
  | r :: queue => by
    rw [nextResponse, List.findIdx?_cons]
    by_cases fits : m.fits r = true
    · rw [if_pos fits]
      unfold Matcher.fits at fits
      rw [if_pos fits]
      rfl
    · rw [if_neg fits]
      unfold Matcher.fits at fits
      rw [if_neg fits, nextResponse_eq m queue, Option.bind_map]
      rfl

theorem awaitResponse_awaited (m : Matcher) (timeout : Nat) (p : Page) :
    Awaited m timeout p.responses (awaitResponse m timeout p).1 (awaitResponse m timeout p).2.responses := by
  unfold awaitResponse record
  rw [Act.bind_ok (Act.modify_apply _ p), Act.bind_ok (Act.get_apply _)]
  dsimp only
  rw [nextResponse_eq]
  cases there : p.responses.findIdx? m.fits with
  | none => exact .missed there
  | some k =>
    obtain ⟨inside, -⟩ := List.findIdx?_eq_some_iff_getElem.mp there
    have at_ : p.responses[k]? = some p.responses[k] := List.getElem?_eq_getElem inside
    rw [Option.bind_some, at_]
    exact .found there at_

/-! ## Sequences -/

/-- What concerns the responses of a page: one comes in, or one is waited for. -/
inductive Traffic where
  | comes (r : Response)
  | wait (m : Matcher) (timeout : Nat)

/-- The same with all bodies left out of account. -/
def Traffic.bare : Traffic → Traffic
  | .comes r => .comes r.bare
  | .wait m timeout => .wait m.bare timeout

/-- The response that comes in. -/
def Traffic.coming : Traffic → Option Response
  | .comes r => some r
  | .wait _ _ => none

/-- The page with the bodies of its queued responses left out of account. -/
def bare (p : Page) : Page := { p with responses := p.responses.map .bare }

def undergo (p : Page) : Traffic → Page
  | .comes r => p.receive r
  | .wait m timeout => ((Browser.awaitResponse m timeout : Act Page Response) p).2

/-- The page after some traffic, oldest first. -/
def after (p : Page) (h : List Traffic) : Page := h.foldl undergo p

/-- All responses that have come in, in their order: those that the page starts with and the later ones. -/
def received (p : Page) (h : List Traffic) : List Response := p.responses ++ h.filterMap Traffic.coming

/-- How many of them are no longer in the queue. -/
def gone (p : Page) (h : List Traffic) : Nat := (received p h).length - (after p h).responses.length

/-- The number of the response that a wait is given then, if there is one. -/
def place (p : Page) (h : List Traffic) (m : Matcher) : Option Nat :=
  ((after p h).responses.findIdx? m.fits).map (gone p h + ·)

/-- Responses are delivered in order and at most once. -/
structure Orderly (p : Page) : Prop where
  /-- The queue holds the responses from some number on. -/
  queued : ∀ h, (after p h).responses = (received p h).drop (gone p h)
  /-- A wait is given the first of the queued responses that fits. It and those before it leave the queue. -/
  found : ∀ h m timeout i, place p h m = some i → ∃ r, (received p h)[i]? = some r ∧ m.fits r = true ∧ gone p h ≤ i ∧
    (∀ j s, gone p h ≤ j → j < i → (received p h)[j]? = some s → m.fits s = false) ∧
    ((Browser.awaitResponse m timeout : Act Page Response) (after p h)).1 = .ok r ∧
    (after p (h ++ [.wait m timeout])).responses = (received p h).drop (i + 1)
  /-- A wait that none of the queued responses fits runs out of time, and the queue is empty then. -/
  missed : ∀ h m timeout, place p h m = none → (∀ s ∈ (after p h).responses, m.fits s = false) ∧
    ((Browser.awaitResponse m timeout : Act Page Response) (after p h)).1 = .error (.timeout timeout m) ∧
    (after p (h ++ [.wait m timeout])).responses = []
  /-- A later wait is given a later response. -/
  ordered : ∀ h m timeout between m' i i', place p h m = some i →
    place p (h ++ .wait m timeout :: between) m' = some i' → i < i'
  /-- What the bodies are and what is asked of them makes no difference. -/
  bodiless : ∀ h (m : Matcher), place p.bare (h.map .bare) m.bare = place p h m

section
variable {p : Page} {h : List Traffic} {m : Matcher}

theorem after_append (p : Page) (h h' : List Traffic) : after p (h ++ h') = after (after p h) h' := List.foldl_append

theorem received_append (p : Page) (h h' : List Traffic) :
    received p (h ++ h') = received p h ++ h'.filterMap Traffic.coming := by
  rw [received, received, List.filterMap_append, List.append_assoc]

theorem after_comes (p : Page) (h : List Traffic) (r : Response) :
    (after p (h ++ [.comes r])).responses = (after p h).responses ++ [r] := by
  rw [after_append]
  rfl

theorem received_comes (p : Page) (h : List Traffic) (r : Response) :
    received p (h ++ [.comes r]) = received p h ++ [r] := received_append p h _

theorem after_wait (p : Page) (h : List Traffic) (m : Matcher) (timeout : Nat) :
    after p (h ++ [.wait m timeout]) = (awaitResponse m timeout (after p h)).2 := after_append p h _

theorem received_wait (p : Page) (h : List Traffic) (m : Matcher) (timeout : Nat) :
    received p (h ++ [.wait m timeout]) = received p h := (received_append p h _).trans (List.append_nil _)

theorem Awaited.suffix {timeout : Nat} {queue rest : List Response} {x : Except Failure Response}
    (ended : Awaited m timeout queue x rest) : rest <:+ queue := by
  cases ended with
  | found => exact List.drop_suffix _ _
  | missed => exact List.nil_suffix

theorem wait_suffix (p : Page) (h : List Traffic) (m : Matcher) (timeout : Nat) :
    (after p (h ++ [.wait m timeout])).responses <:+ (after p h).responses := by
  rw [after_wait]
  exact (awaitResponse_awaited m timeout (after p h)).suffix

theorem responses_suffix (p : Page) (h : List Traffic) : (after p h).responses <:+ received p h := by
  induction h using List.reverseRecOn with
  | nil => exact ⟨[], by simp [received, after]⟩
  | append_singleton h e ih =>
    cases e with
    | comes r =>
      rw [after_comes, received_comes]
      obtain ⟨front, whole⟩ := ih
      exact ⟨front, by rw [← whole, List.append_assoc]⟩
    | wait m timeout =>
      rw [received_wait]
      exact (wait_suffix p h m timeout).trans ih

theorem responses_eq_drop (p : Page) (h : List Traffic) : (after p h).responses = (received p h).drop (gone p h) :=
  List.suffix_iff_eq_drop.mp (responses_suffix p h)

/-- Nothing comes back into the queue. -/
theorem gone_le_append (p : Page) (h h' : List Traffic) : gone p h ≤ gone p (h ++ h') := by
  induction h' using List.reverseRecOn with
  | nil => exact Nat.le_of_eq (by rw [List.append_nil])
  | append_singleton h' e ih =>
    refine Nat.le_trans ih ?_
    rw [← List.append_assoc]
    cases e with
    | comes r =>
      have held := (responses_suffix p (h ++ h')).length_le
      rw [gone, gone, after_comes, received_comes, List.length_append, List.length_append]
      omega
    | wait m timeout =>
      have less := (wait_suffix p (h ++ h') m timeout).length_le
      rw [gone, gone, received_wait]
      omega

/-! ## Numbers of responses -/

theorem place_eq_some {i : Nat} : place p h m = some i ↔
    ∃ k, (after p h).responses.findIdx? m.fits = some k ∧ gone p h + k = i := by
  rw [place, Option.map_eq_some_iff]

theorem Awaited.of_found {timeout k : Nat} {queue rest : List Response} {x : Except Failure Response}
    (there : queue.findIdx? m.fits = some k) (ended : Awaited m timeout queue x rest) :
    ∃ r, queue[k]? = some r ∧ x = .ok r ∧ rest = queue.drop (k + 1) := by
  cases ended with
  | found there' at_ =>
    cases there.symm.trans there'
    exact ⟨_, at_, rfl, rfl⟩
  | missed absent => cases there.symm.trans absent

theorem Awaited.of_missed {timeout : Nat} {queue rest : List Response} {x : Except Failure Response}
    (absent : queue.findIdx? m.fits = none) (ended : Awaited m timeout queue x rest) :
    x = .error (.timeout timeout m) ∧ rest = [] := by
  cases ended with
  | found there => cases absent.symm.trans there
  | missed => exact ⟨rfl, rfl⟩

theorem place_found {i : Nat} (given : place p h m = some i) (timeout : Nat) :
    ∃ r, (received p h)[i]? = some r ∧ m.fits r = true ∧ gone p h ≤ i ∧
      (∀ j s, gone p h ≤ j → j < i → (received p h)[j]? = some s → m.fits s = false) ∧
      (awaitResponse m timeout (after p h)).1 = .ok r ∧
      (after p (h ++ [.wait m timeout])).responses = (received p h).drop (i + 1) := by
  obtain ⟨k, there, rfl⟩ := place_eq_some.mp given
  obtain ⟨r, at_, answer, rest⟩ := (awaitResponse_awaited m timeout (after p h)).of_found there
  obtain ⟨inside, fits, first⟩ := List.findIdx?_eq_some_iff_getElem.mp there
  have numbered (j : Nat) : (after p h).responses[j]? = (received p h)[gone p h + j]? := by
    rw [responses_eq_drop, List.getElem?_drop]
  refine ⟨r, (numbered k).symm.trans at_, ?_, Nat.le_add_right _ _, fun j s queued before at_j => ?_, answer, ?_⟩
  · rw [List.getElem?_eq_getElem inside] at at_
    rwa [← Option.some.inj at_]
  · obtain ⟨j, rfl⟩ := Nat.exists_eq_add_of_le queued
    rw [← numbered] at at_j
    obtain ⟨inside_j, same⟩ := List.getElem?_eq_some_iff.mp at_j
    rw [← same]
    exact Bool.eq_false_iff.mpr (first j (by omega))
  · rw [after_wait, rest, responses_eq_drop, List.drop_drop, Nat.add_assoc]

theorem place_missed (none_ : place p h m = none) (timeout : Nat) :
    (∀ s ∈ (after p h).responses, m.fits s = false) ∧
      (awaitResponse m timeout (after p h)).1 = .error (.timeout timeout m) ∧
      (after p (h ++ [.wait m timeout])).responses = [] := by
  have absent : (after p h).responses.findIdx? m.fits = none := Option.map_eq_none_iff.mp none_
  obtain ⟨answer, rest⟩ := (awaitResponse_awaited m timeout (after p h)).of_missed absent
  exact ⟨List.findIdx?_eq_none_iff.mp absent, answer, by rw [after_wait, rest]⟩

theorem gone_wait {i : Nat} (given : place p h m = some i) (timeout : Nat) :
    gone p (h ++ [.wait m timeout]) = i + 1 := by
  obtain ⟨r, at_, -, -, -, -, rest⟩ := place_found given timeout
  have inside : i < (received p h).length := (List.getElem?_eq_some_iff.mp at_).1
  rw [gone, received_wait, rest, List.length_drop]
  omega

theorem place_increasing {timeout i i' : Nat} {between : List Traffic} {m' : Matcher} (given : place p h m = some i)
    (later : place p (h ++ .wait m timeout :: between) m' = some i') : i < i' := by
  obtain ⟨k, -, rfl⟩ := place_eq_some.mp later
  have kept := gone_le_append p (h ++ [.wait m timeout]) between
  rw [gone_wait given timeout, ← List.append_cons] at kept
  omega

/-! ## Without the bodies -/

theorem findIdx?_bare (m : Matcher) (queue : List Response) :
    (queue.map Response.bare).findIdx? m.bare.fits = queue.findIdx? m.fits := List.findIdx?_map

theorem Awaited.bare {timeout timeout' : Nat} {queue rest rest' : List Response} {x x' : Except Failure Response}
    (ended : Awaited m timeout queue x rest) (ended' : Awaited m.bare timeout' (queue.map .bare) x' rest') :
    rest' = rest.map .bare := by
  cases ended with
  | found there at_ =>
    obtain ⟨-, -, -, same⟩ := ended'.of_found ((findIdx?_bare m queue).trans there)
    rw [same, List.map_drop]
  | missed absent =>
    obtain ⟨-, same⟩ := ended'.of_missed ((findIdx?_bare m queue).trans absent)
    rw [same, List.map_nil]

theorem responses_bare (h : List Traffic) : ∀ p p' : Page, p'.responses = p.responses.map .bare →
    (after p' (h.map .bare)).responses = (after p h).responses.map .bare := by
  induction h with
  | nil => exact fun _ _ => id
  | cons e h ih =>
    intro p p' same
    refine ih (undergo p e) (undergo p' e.bare) ?_
    cases e with
    | comes r => simp [undergo, receive, Traffic.bare, same]
    | wait m timeout =>
      have ended' := awaitResponse_awaited m.bare timeout p'
      rw [same] at ended'
      exact (awaitResponse_awaited m timeout p).bare ended'

theorem place_bare (p : Page) (h : List Traffic) (m : Matcher) : place p.bare (h.map .bare) m.bare = place p h m := by
  have queue := responses_bare h p p.bare rfl
  have coming : ((h.map .bare).filterMap Traffic.coming).length = (h.filterMap Traffic.coming).length := by
    rw [List.filterMap_map]
    have alike : Traffic.coming ∘ Traffic.bare = fun e => e.coming.map Response.bare := by
      funext e
      cases e <;> rfl
    rw [alike, ← List.map_filterMap, List.length_map]
  have same : gone p.bare (h.map .bare) = gone p h := by
    rw [gone, gone, queue, received, received, List.length_append, List.length_append, coming]
    simp [bare]
  rw [place, place, same, queue, findIdx?_bare]

/-- Responses are delivered in order and at most once, by URL and status alone. -/
theorem responses_orderly (p : Page) : Orderly p where
  queued := responses_eq_drop p
  found _ _ timeout _ given := place_found given timeout
  missed _ _ timeout none_ := place_missed none_ timeout
  ordered _ _ _ _ _ _ _ given later := place_increasing given later
  bodiless := place_bare p

end

end Page
end PageSpec
