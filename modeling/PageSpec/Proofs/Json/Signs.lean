import PageSpec.Proofs.Json.Written
import PageSpec.Proofs.Named
/-!
What can be read from a text. Behind a bracket an array or an object is read. A sign that the text does not have
and that no escape stands for is in no string that is read, as long as the backslashes of the text are those of
written strings.
-/
namespace PageSpec

namespace Json

mutual
/-- No string in a value has the sign; names are left aside. -/
def Lacks (q : Char) : Json → Prop
  | .str s => q ∉ s.toList
  | .arr xs => LacksItems q xs
  | .obj fs => LacksFields q fs
  | _ => True
def LacksItems (q : Char) : List Json → Prop
  | [] => True
  | x :: xs => x.Lacks q ∧ LacksItems q xs
def LacksFields (q : Char) : List (String × Json) → Prop
  | [] => True
  | (_, v) :: fs => v.Lacks q ∧ LacksFields q fs
end

section
variable {q : Char}

theorem lacksFields_set {name : String} {v : Json} (value : v.Lacks q) : ∀ {fs : Fields}, LacksFields q fs →
    LacksFields q (fs.set name v)
  | [], _ => ⟨value, trivial⟩
  | (k, old) :: fs, ⟨first, others⟩ => by
    rw [Fields.set]
    by_cases same : k = name
    · rw [if_pos same]
      exact ⟨value, others⟩
    · rw [if_neg same]
      exact ⟨first, lacksFields_set value others⟩

theorem lacksFields_ofWrites {fs : Fields} (lacks : LacksFields q fs) : LacksFields q (Fields.ofWrites fs) := by
  have steps : ∀ (fs done : Fields), LacksFields q done → LacksFields q fs →
      LacksFields q (fs.foldl (fun (fs : Fields) f => fs.set f.1 f.2) done) := by
    intro fs
    induction fs with
    | nil => exact fun _ before _ => before
    | cons f fs ih =>
      intro done before lacks
      obtain ⟨value, others⟩ := lacks
      exact ih _ (lacksFields_set value before) others
  exact steps fs [] trivial lacks

end

namespace Reader

/-! ## Behind a bracket -/

theorem value_of_parse {cs : List Char} {v : Json} (read : parse (.ofList cs) = .ok v) :
    ∃ rest, value (2 * cs.length + 2) maxDepth cs = .ok (v, rest) := by
  rw [parse, Json.read, String.toList_ofList] at read
  cases whole : Reader.whole value cs with
  | error _ =>
    rw [whole] at read
    cases read
  | ok w =>
    rw [whole] at read
    cases read
    obtain ⟨⟨w, rest⟩, first, ends⟩ := ok_of_bind whole
    dsimp only at ends
    split at ends
    · cases ends
      exact ⟨rest, first⟩
    · cases ends

end Reader

theorem bracketed_of_parse {c : Char} {cs : List Char} {v : Json} (sign : c = '[' ∨ c = '{')
    (read : parse (.ofList (c :: cs)) = .ok v) : v.Bracketed := by
  obtain ⟨rest, first⟩ := Reader.value_of_parse read
  rcases sign with rfl | rfl
  · rw [Reader.maxDepth, Reader.value_bracket] at first
    split at first
    · cases first
      trivial
    · obtain ⟨_, _, both⟩ := ok_of_map first
      cases both
      trivial
  · rw [Reader.maxDepth, Reader.value_brace] at first
    split at first
    · cases first
      trivial
    · obtain ⟨_, _, both⟩ := ok_of_map first
      cases both
      trivial

/-! ## Texts without a sign -/

namespace Reader

/-- The backslashes of a text are those of written strings. -/
inductive Escaped : List Char → Prop
  | nil : Escaped []
  | plain {c : Char} {cs : List Char} (backslash : c ≠ '\\') (rest : Escaped cs) : Escaped (c :: cs)
  | short {c e : Char} {cs : List Char} (names : shortEscape? e = some c) (rest : Escaped cs) :
    Escaped ('\\' :: e :: cs)
  | control {c a b : Char} {cs : List Char} (low : c.toNat < 0x20) (hex : hexQuad? '0' '0' a b = some c.toNat)
    (rest : Escaped cs) : Escaped ('\\' :: 'u' :: '0' :: '0' :: a :: b :: cs)

namespace Escaped
variable {c : Char} {front cs : List Char}

theorem unit {u : List Char} (written : Unit c u) (rest : Escaped cs) : Escaped (u ++ cs) := by
  cases written with
  | plain _ backslash _ => exact .plain backslash rest
  | short names => exact .short names rest
  | control low hex => exact .control low hex rest

theorem append (plain : '\\' ∉ front) (rest : Escaped cs) : Escaped (front ++ cs) := by
  induction front with
  | nil => exact rest
  | cons c front ih =>
    obtain ⟨first, others⟩ := not_or.mp (mt List.mem_cons.mpr plain)
    exact .plain (Ne.symm first) (ih others)

theorem tail (escaped : Escaped (c :: cs)) (backslash : c ≠ '\\') : Escaped cs := by
  cases escaped with
  | plain _ rest => exact rest
  | short _ _ => exact absurd rfl backslash
  | control _ _ _ => exact absurd rfl backslash

theorem behind (plain : '\\' ∉ front) (escaped : Escaped (front ++ cs)) : Escaped cs := by
  induction front with
  | nil => exact escaped
  | cons c front ih =>
    obtain ⟨first, others⟩ := not_or.mp (mt List.mem_cons.mpr plain)
    exact ih others (escaped.tail (Ne.symm first))

end Escaped

/-- A text with such backslashes that does not have a sign. -/
structure Lacking (q : Char) (cs : List Char) : Prop where
  escaped : Escaped cs
  absent : q ∉ cs

section
variable {q : Char} {cs rest : List Char}

theorem Lacking.behind {front : List Char} (plain : '\\' ∉ front) (lacking : Lacking q (front ++ cs)) : Lacking q cs :=
  ⟨lacking.escaped.behind plain, fun member => lacking.absent (List.mem_append_right _ member)⟩

theorem Lacking.tail {c : Char} (backslash : c ≠ '\\') (lacking : Lacking q (c :: cs)) : Lacking q cs :=
  ⟨lacking.escaped.tail backslash, fun member => lacking.absent (List.mem_cons_of_mem _ member)⟩

theorem Lacking.dropWhile {p : Char → Bool} (none_ : p '\\' = false) (lacking : Lacking q cs) :
    Lacking q (cs.dropWhile p) := by
  rw [← List.takeWhile_append_dropWhile (p := p) (l := cs)] at lacking
  apply lacking.behind
  intro member
  exact absurd (List.mem_takeWhile_imp member) (by rw [none_]; exact Bool.false_ne_true)

theorem Lacking.append {front : List Char} (plain : '\\' ∉ front) (none_ : q ∉ front) (lacking : Lacking q cs) :
    Lacking q (front ++ cs) :=
  ⟨lacking.escaped.append plain, fun member => (List.mem_append.mp member).elim none_ lacking.absent⟩

theorem Lacking.cons {c : Char} (backslash : c ≠ '\\') (other : c ≠ q) (lacking : Lacking q cs) : Lacking q (c :: cs) :=
  ⟨.plain backslash lacking.escaped, fun member => (List.mem_cons.mp member).elim other.symm lacking.absent⟩

theorem Lacking.unit {c : Char} {u : List Char} (written : Unit c u) (none_ : q ∉ u) (lacking : Lacking q cs) :
    Lacking q (u ++ cs) :=
  ⟨lacking.escaped.unit written, fun member => (List.mem_append.mp member).elim none_ lacking.absent⟩

theorem Lacking.skip (lacking : Lacking q cs) : Lacking q (skip cs) := lacking.dropWhile (by decide)

/-- No escape stands for the sign. -/
structure Unescaped (q : Char) : Prop where
  shown : 0x20 ≤ q.toNat
  short : ∀ e, shortEscape? e ≠ some q

theorem Unescaped.of_other (shown : 0x20 ≤ q.toNat)
    (other : q ∉ ['"', '\\', '/', '\x08', '\x0c', '\n', '\r', '\t']) : Unescaped q := by
  refine ⟨shown, fun e names => other ?_⟩
  unfold shortEscape? at names
  split at names
  all_goals
    cases names
  all_goals decide

/-- A sign that no escape stands for is written as itself. -/
theorem Unescaped.escapeChar (unescaped : Unescaped q) : escapeChar q = [q] := by
  have unit := escapeChar_unit q
  generalize Json.escapeChar q = u at unit
  cases unit with
  | plain _ _ _ => rfl
  | @short e names => exact absurd names (unescaped.short e)
  | control low _ => exact absurd unescaped.shown (Nat.not_le.mpr low)

theorem stringRest_lacks (unescaped : Unescaped q) (escaped : Escaped cs) : ∀ {s rest : List Char}, q ∉ cs →
    stringRest cs = .ok (s, rest) → q ∉ s ∧ Lacking q rest := by
  have next {c : Char} {u cs s rest : List Char} (written : Unit c u) (other : q ≠ c)
      (later : ∀ {s rest : List Char}, stringRest cs = .ok (s, rest) → q ∉ s ∧ Lacking q rest)
      (read : stringRest (u ++ cs) = .ok (s, rest)) : q ∉ s ∧ Lacking q rest := by
    rw [stringRest_unit written] at read
    obtain ⟨⟨s', rest'⟩, first, both⟩ := ok_of_map read
    cases both
    obtain ⟨absent, lacking⟩ := later first
    exact ⟨by rw [List.mem_cons, not_or]; exact ⟨other, absent⟩, lacking⟩
  induction escaped with
  | nil =>
    intro _ _ _ read
    cases read
  | @plain c cs backslash escaped ih =>
    intro s rest absent read
    obtain ⟨other, later⟩ := not_or.mp (mt List.mem_cons.mpr absent)
    by_cases quote : c = '"'
    · rw [quote, stringRest] at read
      cases read
      exact ⟨List.not_mem_nil, escaped, later⟩
    by_cases low : c.toNat < 0x20
    · rw [stringRest] at read
      · rw [if_neg backslash, if_pos low] at read
        cases read
      · exact quote
      · rintro _ _ _ _ _ rfl
        exact absurd rfl backslash
      · rintro _ _ rfl
        exact absurd rfl backslash
    · exact next (.plain quote backslash (Nat.not_lt.mp low)) other (ih later) read
  | @short c e cs names escaped ih =>
    intro s rest absent read
    have later : q ∉ cs := fun member => absent (by simp [member])
    exact next (.short names) (fun same => unescaped.short e (same ▸ names)) (ih later) read
  | @control c a b cs low hex escaped ih =>
    intro s rest absent read
    have later : q ∉ cs := fun member => absent (by simp [member])
    have other : q ≠ c := by
      rintro rfl
      exact absurd unescaped.shown (Nat.not_le.mpr low)
    exact next (.control low hex) other (ih later) read

theorem double_lacks {negative : Bool} {sig : Nat} {e : Int} {v : Json} (lacking : Lacking q cs)
    (read : double negative sig e cs = .ok (v, rest)) : v.Lacks q ∧ Lacking q rest := by
  unfold double at read
  split at read
  · cases read
    exact ⟨trivial, lacking⟩
  · cases read

theorem exponentRest_lacks {negative : Bool} {sig : Nat} {shift : Int} {v : Json} (lacking : Lacking q cs)
    (read : exponentRest negative sig shift cs = .ok (v, rest)) : v.Lacks q ∧ Lacking q rest := by
  unfold exponentRest at read
  split at read
  rename_i minus ds signed
  have unsigned : Lacking q ds := by
    split at signed
    · cases signed
      exact lacking.tail (by decide)
    · cases signed
      exact lacking.tail (by decide)
    · cases signed
      exact lacking
  have behind : Lacking q (ds.dropWhile Text.isDigit) := unsigned.dropWhile (by decide)
  dsimp only at read
  split at read
  · cases read
  split at read
  · split at read
    · cases read
      exact ⟨trivial, behind⟩
    · cases read
  · exact double_lacks behind read

theorem fractionRest_lacks {negative : Bool} {sig dropped : Nat} {v : Json} (lacking : Lacking q cs)
    (read : fractionRest negative sig dropped cs = .ok (v, rest)) : v.Lacks q ∧ Lacking q rest := by
  have behind : Lacking q (cs.dropWhile Text.isDigit) := lacking.dropWhile (by decide)
  unfold fractionRest at read
  dsimp only at read
  split at read
  · cases read
  generalize cs.dropWhile Text.isDigit = more at behind read
  cases more with
  | nil => exact double_lacks behind read
  | cons c more =>
    dsimp only at read
    split at read
    · rename_i letter
      refine exponentRest_lacks (behind.tail ?_) read
      rintro rfl
      exact absurd letter (by decide)
    · exact double_lacks behind read

theorem numberRest_lacks {negative : Bool} {v : Json} (lacking : Lacking q cs)
    (read : numberRest negative cs = .ok (v, rest)) : v.Lacks q ∧ Lacking q rest := by
  have behind : Lacking q (cs.dropWhile Text.isDigit) := lacking.dropWhile (by decide)
  unfold numberRest at read
  dsimp only at read
  generalize cs.dropWhile Text.isDigit = more at behind read
  split at read
  · cases read
  split at read
  · cases read
  split at read
  · exact fractionRest_lacks (behind.tail (by decide)) read
  · exact exponentRest_lacks (behind.tail (by decide)) read
  · exact exponentRest_lacks (behind.tail (by decide)) read
  · split at read
    · exact double_lacks behind read
    split at read
    · cases read
      exact ⟨trivial, behind⟩
    split at read
    · cases read
      exact ⟨trivial, behind⟩
    · cases read
      exact ⟨trivial, behind⟩

theorem word_lacks {w : List Char} {v u : Json} (plain : '\\' ∉ w) (free : v.Lacks q) (lacking : Lacking q cs)
    (read : word w v cs = .ok (u, rest)) : u.Lacks q ∧ Lacking q rest := by
  unfold word at read
  split at read
  · rename_i found
    cases read
    rw [Text.eq_of_after? found] at lacking
    exact ⟨free, lacking.behind plain⟩
  · cases read

mutual
theorem value_lacks (unescaped : Unescaped q) : ∀ {fuel depth : Nat} {cs rest : List Char} {v : Json}, Lacking q cs →
    value fuel depth cs = .ok (v, rest) → v.Lacks q ∧ Lacking q rest
  | 0, _, _, _, _, _, read => nomatch read
  | fuel + 1, depth, cs, rest, v, lacking, read => by
    have lacking := lacking.skip
    rw [value] at read
    generalize skip cs = more at lacking read
    split at read
    · cases read
    · exact word_lacks (v := .null) (by decide) trivial (lacking.tail (by decide)) read
    · exact word_lacks (v := .bool true) (by decide) trivial (lacking.tail (by decide)) read
    · exact word_lacks (v := .bool false) (by decide) trivial (lacking.tail (by decide)) read
    · obtain ⟨⟨s, rest'⟩, first, both⟩ := ok_of_map read
      cases both
      have later := lacking.tail (by decide)
      obtain ⟨absent, behind⟩ := stringRest_lacks unescaped later.escaped later.absent first
      exact ⟨by rwa [Lacks, String.toList_ofList], behind⟩
    · exact numberRest_lacks (lacking.tail (by decide)) read
    · have later := (lacking.tail (by decide)).skip
      split at read
      · cases read
      split at read
      · rename_i same
        cases read
        rw [same] at later
        exact ⟨trivial, later.tail (by decide)⟩
      · obtain ⟨⟨xs, rest'⟩, first, both⟩ := ok_of_map read
        cases both
        exact items_lacks unescaped later first
    · have later := (lacking.tail (by decide)).skip
      split at read
      · cases read
      split at read
      · rename_i same
        cases read
        rw [same] at later
        exact ⟨trivial, later.tail (by decide)⟩
      · obtain ⟨⟨fs, rest'⟩, first, both⟩ := ok_of_map read
        cases both
        obtain ⟨values, behind⟩ := fields_lacks unescaped later first
        exact ⟨lacksFields_ofWrites values, behind⟩
    · split at read
      · exact numberRest_lacks lacking read
      · cases read
theorem items_lacks (unescaped : Unescaped q) : ∀ {fuel depth : Nat} {cs rest : List Char} {xs : List Json},
    Lacking q cs → items fuel depth cs = .ok (xs, rest) → LacksItems q xs ∧ Lacking q rest
  | 0, _, _, _, _, _, read => nomatch read
  | fuel + 1, depth, cs, rest, xs, lacking, read => by
    rw [items] at read
    obtain ⟨⟨x, r⟩, first, others⟩ := ok_of_bind read
    obtain ⟨value, behind⟩ := value_lacks unescaped lacking first
    have behind := behind.skip
    dsimp only at others
    split at others
    · rename_i same
      rw [same] at behind
      obtain ⟨⟨ys, r'⟩, second, both⟩ := ok_of_bind others
      cases both
      obtain ⟨values, behind⟩ := items_lacks unescaped (behind.tail (by decide)) second
      exact ⟨⟨value, values⟩, behind⟩
    · rename_i same
      rw [same] at behind
      cases others
      exact ⟨⟨value, trivial⟩, behind.tail (by decide)⟩
    · cases others
theorem fields_lacks (unescaped : Unescaped q) : ∀ {fuel depth : Nat} {cs rest : List Char} {fs : List (String × Json)},
    Lacking q cs → fields fuel depth cs = .ok (fs, rest) → LacksFields q fs ∧ Lacking q rest
  | 0, _, _, _, _, _, read => nomatch read
  | fuel + 1, depth, cs, rest, fs, lacking, read => by
    have lacking := lacking.skip
    rw [fields] at read
    split at read
    · rename_i same
      rw [same] at lacking
      have inside := lacking.tail (by decide)
      obtain ⟨⟨k, r⟩, name, named⟩ := ok_of_bind read
      obtain ⟨_, behind⟩ := stringRest_lacks unescaped inside.escaped inside.absent name
      have behind := behind.skip
      dsimp only at named
      split at named
      · rename_i colon
        rw [colon] at behind
        obtain ⟨⟨v, r'⟩, first, others⟩ := ok_of_bind named
        obtain ⟨value, behind⟩ := value_lacks unescaped (behind.tail (by decide)) first
        have behind := behind.skip
        dsimp only at others
        split at others
        · rename_i comma
          rw [comma] at behind
          obtain ⟨⟨gs, r''⟩, second, both⟩ := ok_of_bind others
          cases both
          obtain ⟨values, behind⟩ := fields_lacks unescaped (behind.tail (by decide)) second
          exact ⟨⟨value, values⟩, behind⟩
        · rename_i brace
          rw [brace] at behind
          cases others
          exact ⟨⟨value, trivial⟩, behind.tail (by decide)⟩
        · cases others
      · cases named
    · cases read
end

end

end Reader

/-- What is read from a text that does not have a sign does not have it either. -/
theorem lacks_of_parse {q : Char} {cs : List Char} {v : Json} (unescaped : Reader.Unescaped q)
    (lacking : Reader.Lacking q cs) (read : parse (.ofList cs) = .ok v) : v.Lacks q := by
  obtain ⟨_, first⟩ := Reader.value_of_parse read
  exact (Reader.value_lacks unescaped lacking first).1

end Json
end PageSpec
