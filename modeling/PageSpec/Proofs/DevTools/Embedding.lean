import PageSpec.DevTools.Script
import PageSpec.Proofs.Json.Closing
/-!
Locators in scripts. The steps of a locator stand in a script as one literal, between a fixed beginning and the body.
Nothing in them gets out of it: the literal ends where its array does, and the steps are read back from it, so that
other steps make another script.
-/
namespace PageSpec

/-! ## Steps as JSON -/

namespace Step

/-- A position has 64 bits. -/
def Fits : Step → Prop
  | .nth n => leastInt64 ≤ n ∧ n ≤ greatestInt64
  | _ => True

section
variable {s : Step}

theorem decode_toJson (fits : s.Fits) : decode s.toJson = .ok s := by
  cases s with
  | nth n =>
    have inside : leastInt64 ≤ n ∧ n ≤ greatestInt64 := fits
    have read : Decoder.int64 (.int n) = .ok n := if_pos inside
    exact congrArg (Except.map Step.nth) read
  | frame | css | text | tagText | parent | first | last => rfl

theorem toJson_tidy (s : Step) : s.toJson.Tidy := by
  cases s <;> simp [toJson, Json.Tidy, Json.TidyFields, Fields.keys]

theorem toJson_integral (fits : s.Fits) : s.toJson.Integral := by
  cases s with
  | nth n =>
    have inside : leastInt64 ≤ n ∧ n ≤ greatestInt64 := fits
    have smaller : greatestInt64 < twoTo 64 := by decide
    exact ⟨⟨inside.1, Int.lt_of_le_of_lt inside.2 smaller⟩, trivial⟩
  | _ => simp [toJson, Json.Integral, Json.IntegralFields]

theorem toJson_depth (s : Step) : s.toJson.depth ≤ 2 := by
  cases s <;> simp [toJson, Json.depth, Json.depthFields]

end

end Step

namespace Locator

/-- Every position in a locator has 64 bits. -/
def Fits (l : Locator) : Prop := ∀ s ∈ l.steps, s.Fits

variable {l : Locator}

theorem decode_toJson (fits : l.Fits) : decode l.toJson = .ok l := by
  have steps : ∀ steps : List Step, (∀ s ∈ steps, s.Fits) → (steps.map Step.toJson).mapM Step.decode = .ok steps := by
    intro steps fits
    induction steps with
    | nil => rfl
    | cons s steps ih =>
      obtain ⟨first, others⟩ := List.forall_mem_cons.mp fits
      rw [List.map_cons, List.mapM_cons, Step.decode_toJson first, ih others]
      rfl
  rw [decode, toJson, Decoder.list, steps l.steps fits]
  rfl

theorem toJson_readable (fits : l.Fits) : l.toJson.Readable := by
  have items : ∀ steps : List Step, (∀ s ∈ steps, s.Fits) → Json.TidyItems (steps.map Step.toJson) ∧
      Json.IntegralItems (steps.map Step.toJson) ∧ Json.depthItems (steps.map Step.toJson) ≤ 2 := by
    intro steps fits
    induction steps with
    | nil => exact ⟨trivial, trivial, Nat.zero_le 2⟩
    | cons s steps ih =>
      obtain ⟨first, others⟩ := List.forall_mem_cons.mp fits
      obtain ⟨tidy, integral, shallow⟩ := ih others
      exact ⟨⟨s.toJson_tidy, tidy⟩, ⟨Step.toJson_integral first, integral⟩, Nat.max_le.mpr ⟨s.toJson_depth, shallow⟩⟩
  obtain ⟨tidy, integral, shallow⟩ := items l.steps fits
  exact ⟨tidy, integral, (Nat.succ_le_succ shallow).trans (by decide)⟩

end Locator

/-! ## Steps in a script -/

namespace DevTools.Script

/-- The literal stands between a fixed beginning and the body, it has no control characters, it ends where its array is
closed, whatever follows, and what is read from it are the steps of the locator. -/
structure Embedded (l : Locator) (body literal : String) : Prop where
  script : withElements l body = (opening ++ "const els = __jwResolve(") ++ literal ++
    (");\nconst el = els[0] || null;\n" ++ body ++ closing)
  shown : Json.Shown literal.toList
  closed : ∀ rest, Json.cutClosed (.outside 0) (literal.toList ++ rest) = some (literal.toList, rest)
  steps : ∃ v, Json.parse literal = .ok v ∧ Locator.decode v = .ok l

section
variable {l l' : Locator} {body body' lit : String}

theorem embedded (fits : l.Fits) (body : String) : Embedded l body (literal l.toJson) := by
  have readable := Locator.toJson_readable fits
  refine ⟨?_, ?_, fun rest => ?_, l.toJson, Json.parse_text readable, Locator.decode_toJson fits⟩
  · simp only [withElements, String.append_assoc]
  · rw [literal, Json.text, String.toList_ofList]
    exact Json.shown_chars _ readable.integral
  · rw [literal, Json.text, String.toList_ofList]
    exact Json.cutClosed_chars (v := l.toJson) trivial readable.integral rest

/-- One literal stands for one locator. -/
theorem Embedded.locator (first : Embedded l body lit) (second : Embedded l' body' lit) : l = l' := by
  obtain ⟨v, read, decoded⟩ := first.steps
  obtain ⟨v', read', decoded'⟩ := second.steps
  cases read.symm.trans read'
  exact Except.ok.inj (decoded.symm.trans decoded')

/-- The literal can be told from the script: it is what is cut off behind the beginning. -/
theorem Embedded.unique {lit' : String} (first : Embedded l body lit) (second : Embedded l' body' lit')
    (same : withElements l body = withElements l' body') : lit = lit' ∧ body = body' := by
  have behind := congrArg String.toList same
  rw [first.script, second.script] at behind
  simp only [String.toList_append, List.append_assoc, List.append_cancel_left_eq] at behind
  have cut := (first.closed _).symm.trans ((congrArg (Json.cutClosed (.outside 0)) behind).trans (second.closed _))
  obtain ⟨literals, rests⟩ := Prod.mk.inj (Option.some.inj cut)
  exact ⟨String.toList_inj.mp literals, String.toList_inj.mp
    (List.append_cancel_right (List.append_cancel_left rests))⟩

end

/-- Locators do not break out of scripts. -/
theorem withElements_embedded :
    (∀ l body, l.Fits → Embedded l body (literal l.toJson)) ∧
    ∀ l l', l.Fits → l'.Fits → (literal l.toJson = literal l'.toJson → l = l') ∧
      ∀ body body', withElements l body = withElements l' body' → l = l' ∧ body = body' := by
  refine ⟨fun l body fits => embedded fits body, fun l l' fits fits' => ⟨fun same => ?_, fun body body' same => ?_⟩⟩
  · exact (embedded fits "").locator (same ▸ embedded fits' "")
  · obtain ⟨lit, bodies⟩ := (embedded fits body).unique (embedded fits' body') same
    exact ⟨(embedded fits body).locator (lit ▸ embedded fits' body'), bodies⟩

/-- A text that would end the literal and the call, if it could. -/
theorem breakout_embedded :
    let l : Locator := ⟨[.tagText "li" "\\\"]);alert(1)//", .nth (-1)]⟩
    literal l.toJson =
      "[\x7b\"TagText\":\x7b\"tag\":\"li\",\"text\":\"\\\\\\\"]);alert(1)//\"\x7d\x7d,\x7b\"Nth\":-1\x7d]" ∧
      Embedded l text (literal l.toJson) ∧ literal l.toJson ≠ literal Locator.page.toJson ∧
      withElements l text ≠ withElements .page text := by
  intro l
  have fits : l.Fits := by
    intro s member
    rcases List.mem_cons.mp member with rfl | member
    · trivial
    · rw [List.mem_singleton.mp member]
      exact ⟨by decide, by decide⟩
  have other : l ≠ .page := by decide
  have apart := withElements_embedded.2 l .page fits (fun _ member => nomatch member)
  exact ⟨by decide +kernel, withElements_embedded.1 l text fits, fun same => other (apart.1 same),
    fun same => other (apart.2 text text same).1⟩

end DevTools.Script
end PageSpec
