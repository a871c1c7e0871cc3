import Mathlib.Data.List.Infix
import PageSpec.Files.Path
import PageSpec.Proofs.Text.Cutting
/-!
Paths below a directory. The names of such a path are those of the directory and then those that lead on from there,
its file name is the last of these, and the extension is what stands behind the last dot of the file name.
-/
namespace PageSpec

/-- What stands around a separator is cut apart on its own. -/
theorem Text.splitAll_around {sep : Char} : ∀ (cs rest : List Char),
    splitAll sep (cs ++ sep :: rest) = splitAll sep cs ++ splitAll sep rest
  | [], rest => by simp [splitAll]
  | c :: cs, rest => by
    obtain ⟨p, ps, cut, -⟩ := splitAll_pieces sep cs
    rw [List.cons_append, splitAll, splitAll, splitAll_around cs rest, cut]
    by_cases same : c = sep
    · rw [if_pos same, if_pos same]
      rfl
    · rw [if_neg same, if_neg same]
      rfl

namespace Path

/-- What an entry of a directory can be named. -/
structure IsName (n : String) : Prop where
  letters : n ≠ ""
  notHere : n ≠ "."
  notAbove : n ≠ ".."
  whole : '/' ∉ n.toList

section
variable {dir : String} {l : List String}

/-- The path that some names make up. -/
def ofNames (l : List String) : String := "/".intercalate l

theorem toList_ofNames (l : List String) : (ofNames l).toList = ['/'].intercalate (l.map String.toList) := by
  rw [ofNames, String.toList_intercalate]
  rfl

theorem isAbsolute_iff {p : String} : isAbsolute p = true ↔ p.toList.head? = some '/' := by
  rw [isAbsolute, beq_iff_eq]

/-- Names make up a relative path. -/
theorem isAbsolute_ofNames (names : ∀ n ∈ l, IsName n) : isAbsolute (ofNames l) = false := by
  refine Bool.eq_false_iff.mpr fun absolute => ?_
  rw [isAbsolute_iff, toList_ofNames] at absolute
  cases l with
  | nil => cases absolute
  | cons n l =>
    have name := names n List.mem_cons_self
    cases letters : n.toList with
    | nil => exact name.letters (String.toList_eq_nil_iff.mp letters)
    | cons c cs =>
      have first : c = '/' := by cases l <;> simpa [letters, List.intercalate_cons_cons] using absolute
      exact name.whole (by rw [letters, first]; exact List.mem_cons_self)

theorem splitAll_ofNames (names : ∀ n ∈ l, IsName n) (some_ : l ≠ []) :
    (Text.splitAll '/' (ofNames l).toList).map String.ofList = l := by
  obtain ⟨n, l, rfl⟩ := List.exists_cons_of_ne_nil some_
  have apart : ∀ cs ∈ n.toList :: l.map String.toList, '/' ∉ cs := by
    intro cs member
    obtain ⟨m, inside, rfl⟩ := List.mem_map.mp (List.map_cons (f := String.toList) ▸ member)
    exact (names m inside).whole
  rw [toList_ofNames, List.map_cons, Text.splitAll_intercalate apart, ← List.map_cons, List.map_map]
  exact (List.map_congr_left fun _ _ => String.ofList_toList).trans (List.map_id _)

/-- The texts between slashes, all of them. -/
def cuts (p : String) : List String := (Text.splitAll '/' p.toList).map String.ofList

theorem pieces_eq (p : String) : pieces p = if isAbsolute p then (cuts p).drop 1 else cuts p := rfl

theorem cuts_ne_nil (cs : List Char) : (Text.splitAll '/' cs).map String.ofList ≠ [] := by
  obtain ⟨p, ps, pieces, -⟩ := Text.splitAll_pieces '/' cs
  rw [pieces]
  exact List.cons_ne_nil _ _

/-- A path below a directory leads on from where the directory does. -/
theorem isAbsolute_join {p : String} (relative : isAbsolute p = false) : isAbsolute (join dir p) = isAbsolute dir := by
  by_cases empty : dir = ""
  · have bare : isAbsolute "" = false := rfl
    rw [join, empty, bare]
    simpa using relative
  have solid : dir.toList ≠ [] := mt String.toList_eq_nil_iff.mp empty
  have start (q : String) (rest : List Char) (longer : q.toList = dir.toList ++ rest) : isAbsolute q = isAbsolute dir := by
    rw [isAbsolute, isAbsolute, longer, List.head?_append_of_ne_nil _ solid]
  unfold join
  rw [relative, Bool.false_or, if_neg (by simpa using empty)]
  split_ifs with slash
  · exact start _ p.toList String.toList_append
  · exact start _ ('/' :: p.toList) (by rw [String.toList_append, String.toList_append, List.append_assoc]; rfl)

theorem cuts_join (solid : dir ≠ "") (names : ∀ n ∈ l, IsName n) (some_ : l ≠ []) :
    ∃ front, front ≠ [] ∧ cuts (join dir (ofNames l)) = front ++ l ∧ (cuts dir = front ∨ cuts dir = front ++ [""]) := by
  have below : isAbsolute (ofNames l) = false := isAbsolute_ofNames names
  have cut (cs : List Char) : (Text.splitAll '/' (cs ++ '/' :: (ofNames l).toList)).map String.ofList =
      (Text.splitAll '/' cs).map String.ofList ++ l := by
    rw [Text.splitAll_around, List.map_append, splitAll_ofNames names some_]
  unfold join
  rw [below, Bool.false_or, if_neg (by simpa using solid)]
  by_cases slash : dir.toList.getLast? = some '/'
  · obtain ⟨cs, ends⟩ := List.getLast?_eq_some_iff.mp slash
    have joined : (dir ++ ofNames l).toList = cs ++ '/' :: (ofNames l).toList := by
      rw [String.toList_append, ends, List.append_assoc]
      rfl
    rw [if_pos slash]
    refine ⟨(Text.splitAll '/' cs).map String.ofList, cuts_ne_nil cs, ?_, .inr ?_⟩
    · rw [cuts, joined, cut]
    · rw [cuts, ends, Text.splitAll_around, List.map_append]
      rfl
  · have joined : (dir ++ "/" ++ ofNames l).toList = dir.toList ++ '/' :: (ofNames l).toList := by
      rw [String.toList_append, String.toList_append, List.append_assoc]
      rfl
    rw [if_neg slash]
    refine ⟨cuts dir, cuts_ne_nil _, ?_, .inl rfl⟩
    rw [cuts, joined, cut, cuts]

/-- The pieces of a path below a directory: those of the directory, less an empty one at its end, and then the names
that lead on. -/
theorem pieces_join (solid : dir ≠ "") (names : ∀ n ∈ l, IsName n) (some_ : l ≠ []) :
    ∃ front, (isAbsolute dir = false → front ≠ []) ∧ pieces (join dir (ofNames l)) = front ++ l ∧
      (pieces dir = front ∨ pieces dir = front ++ [""]) := by
  obtain ⟨front, start, cut, above⟩ := cuts_join solid names some_
  rw [pieces_eq, pieces_eq, isAbsolute_join (isAbsolute_ofNames names), cut]
  cases isAbsolute dir with
  | false => exact ⟨front, fun _ => start, rfl, above⟩
  | true =>
    -- Without the empty piece before the first slash nothing may be left of the directory.
    obtain ⟨first, rest, rfl⟩ := List.exists_cons_of_ne_nil start
    refine ⟨rest, nofun, rfl, ?_⟩
    rcases above with above | above <;> simp [above]

/-- The names of a path below a directory are those of the directory and those that lead on. -/
theorem names_join (solid : dir ≠ "") (names : ∀ n ∈ l, IsName n) (some_ : l ≠ []) :
    Path.names (join dir (ofNames l)) = Path.names dir ++ l := by
  obtain ⟨front, start, below, above⟩ := pieces_join solid names some_
  have kept : l.filter (fun s => s ≠ "" && s ≠ ".") = l := by
    refine List.filter_eq_self.mpr fun n member => ?_
    simp [(names n member).letters, (names n member).notHere]
  have same : (pieces dir).filter (fun s => s ≠ "" && s ≠ ".") = front.filter fun s => s ≠ "" && s ≠ "." := by
    rcases above with same | same <;> simp [same]
  unfold Path.names
  rw [isAbsolute_join (isAbsolute_ofNames names)]
  cases absolute : isAbsolute dir with
  | true => simp only [below, same, List.filter_append, kept, if_pos, List.cons_append]
  | false =>
    have first : (pieces dir).head? = front.head? := by
      rcases above with same | same
      · rw [same]
      · rw [same, List.head?_append_of_ne_nil _ (start absolute)]
    simp only [below, same, first, List.filter_append, kept, List.head?_append_of_ne_nil _ (start absolute)]
    by_cases dotted : front.head? = some "." <;> simp [dotted]

/-- Nothing is left off after a name. -/
theorem significant_name {n : String} (name : IsName n) (absolute : Bool) (ps : List String) :
    significant absolute (n :: ps) = n :: ps := by
  cases ps <;> simp [significant, name.letters, name.notHere]

/-- The file name of a path below a directory is the last of the names that lead on. -/
theorem fileName?_join (solid : dir ≠ "") {n : String} (names : ∀ m ∈ l ++ [n], IsName m) :
    fileName? (join dir (ofNames (l ++ [n]))) = some n := by
  obtain ⟨front, -, below, -⟩ := pieces_join solid names (by simp)
  have name := names n (by simp)
  have reversed : (front ++ (l ++ [n])).reverse = n :: (front ++ l).reverse := by simp
  unfold fileName?
  rw [below, reversed, significant_name name]
  simp [name.notHere, name.notAbove]

end

/-! ## Following a path -/

section
variable {root p q n : String} {l : List String}

/-- The names that a path is followed by. -/
def steps (p : String) : List String := (pieces p).filter (· ≠ "")

theorem steps_eq (p : String) : steps p = ((Text.splitAll '/' p.toList).map String.ofList).filter (· ≠ "") := by
  unfold steps pieces
  by_cases absolute : isAbsolute p = true
  · obtain ⟨cs, start⟩ := List.head?_eq_some_iff.mp (isAbsolute_iff.mp absolute)
    simp [absolute, start, Text.splitAll]
  · simp [absolute]

theorem whole_of_mem_pieces (member : n ∈ pieces p) : '/' ∉ n.toList := by
  obtain ⟨first, more, cut, -, apart⟩ := Text.splitAll_pieces '/' p.toList
  have among : n ∈ (Text.splitAll '/' p.toList).map String.ofList := by
    unfold pieces at member
    split_ifs at member
    · exact List.mem_of_mem_drop member
    · exact member
  obtain ⟨cs, inside, rfl⟩ := List.mem_map.mp among
  rw [String.toList_ofList]
  exact apart cs (cut ▸ inside)

/-- Names make up a path that is followed by them. -/
theorem steps_ofReversed (absolute : Bool) {ps : List String} (whole : ∀ n ∈ ps, '/' ∉ n.toList) :
    steps (ofReversed absolute ps) = ps.reverse.filter (· ≠ "") := by
  have bare : steps ("/".intercalate ps.reverse) = ps.reverse.filter (· ≠ "") := by
    rw [steps_eq]
    cases kept : ps.reverse with
    | nil => rfl
    | cons n l =>
      have apart : ∀ cs ∈ n.toList :: l.map String.toList, '/' ∉ cs := by
        rw [← List.map_cons, ← kept]
        simpa using whole
      have cut : Text.splitAll '/' ("/".intercalate (n :: l)).toList = (n :: l).map String.toList := by
        rw [String.toList_intercalate]
        exact Text.splitAll_intercalate apart
      rw [cut]
      simp
  unfold ofReversed
  cases absolute with
  | false => rw [if_neg Bool.false_ne_true, String.empty_append, bare]
  | true =>
    rw [if_pos rfl, steps_eq, String.toList_append, ← bare, steps_eq]
    simp [Text.splitAll]

theorem significant_suffix (absolute : Bool) : ∀ ps : List String, significant absolute ps <:+ ps
  | [] => List.suffix_refl []
  | [p] => by
    unfold significant
    split_ifs
    · exact List.nil_suffix
    · exact List.suffix_refl _
  | p :: q :: ps => by
    unfold significant
    split_ifs
    · exact (significant_suffix absolute (q :: ps)).trans (List.suffix_cons p _)
    · exact List.suffix_refl _

/-- The names of the path above are the first ones of the path. -/
theorem steps_parent (above : parent? p = some q) : steps q <+: steps p := by
  unfold parent? at above
  cases kept : significant (isAbsolute p) (pieces p).reverse with
  | nil => simp [kept] at above
  | cons n rest =>
    simp only [kept, Option.some.injEq] at above
    have inside : significant (isAbsolute p) rest <:+ (pieces p).reverse := by
      refine (significant_suffix _ rest).trans ((List.suffix_cons n rest).trans ?_)
      exact kept ▸ significant_suffix _ _
    have whole : ∀ m ∈ significant (isAbsolute p) rest, '/' ∉ m.toList := fun m member =>
      whole_of_mem_pieces (List.mem_reverse.mp (inside.subset member))
    rw [← above, steps_ofReversed _ whole]
    exact (List.reverse_suffix.mp (by rwa [List.reverse_reverse])).filter _

theorem intercalate_pieces (relative : isAbsolute p = false) : "/".intercalate (pieces p) = p := by
  obtain ⟨first, more, cut, joined, -⟩ := Text.splitAll_pieces '/' p.toList
  unfold pieces
  rw [relative, cut, ← String.toList_inj, String.toList_intercalate, if_neg Bool.false_ne_true, List.map_map]
  simpa [Function.comp_def] using joined

/-- The path above starts where the path does. -/
theorem isAbsolute_parent (above : parent? p = some q) : isAbsolute q = isAbsolute p := by
  unfold parent? at above
  cases kept : significant (isAbsolute p) (pieces p).reverse with
  | nil => simp [kept] at above
  | cons n rest =>
    simp only [kept, Option.some.injEq] at above
    cases absolute : isAbsolute p with
    | true =>
      rw [← above, absolute]
      simp [isAbsolute, ofReversed, String.toList_append]
    | false =>
      -- The path above is made of the first pieces, so that the path starts with it.
      have first : (significant (isAbsolute p) rest).reverse <+: pieces p := by
        refine List.reverse_suffix.mp ?_
        rw [List.reverse_reverse]
        refine (significant_suffix _ rest).trans ((List.suffix_cons n rest).trans ?_)
        exact kept ▸ significant_suffix _ _
      obtain ⟨others, whole⟩ := first
      rw [absolute] at above whole
      have joined : q = "/".intercalate (significant false rest).reverse := by simp [← above, ofReversed]
      refine Bool.eq_false_iff.mpr fun leads => Bool.eq_false_iff.mp absolute ?_
      rw [isAbsolute_iff] at leads ⊢
      have solid : q.toList ≠ [] := by rintro empty; rw [empty] at leads; cases leads
      by_cases all : others = []
      · rw [all, List.append_nil] at whole
        rwa [← intercalate_pieces absolute, ← whole, ← joined]
      · have some_ : (significant false rest).reverse ≠ [] := by
          intro empty
          rw [empty] at joined
          exact solid (by rw [joined]; rfl)
        rwa [← intercalate_pieces absolute, ← whole, String.intercalate_append_of_ne_nil some_ all, ← joined,
          String.append_assoc, String.toList_append, List.head?_append_of_ne_nil _ solid]

/-- A path that is followed by no names is made of slashes. -/
theorem isAbsolute_of_steps (none_ : steps p = []) (solid : p ≠ "") : isAbsolute p = true := by
  rw [steps_eq] at none_
  rw [isAbsolute_iff]
  cases letters : p.toList with
  | nil => exact absurd (String.toList_eq_nil_iff.mp letters) solid
  | cons c cs =>
    by_contra other
    have other : c ≠ '/' := by simpa using other
    obtain ⟨first, more, cut, -⟩ := Text.splitAll_pieces '/' cs
    simp [letters, Text.splitAll, other, cut] at none_

theorem steps_ofNames (names : ∀ n ∈ l, IsName n) (some_ : l ≠ []) : steps (ofNames l) = l := by
  rw [steps_eq, splitAll_ofNames names some_]
  exact List.filter_eq_self.mpr fun n member => by simp [(names n member).letters]

section
variable (names : ∀ n ∈ l, IsName n) (some_ : l ≠ [])
include names some_

variable (root) in
/-- The pieces of a path below a directory end in the names that lead on. -/
theorem pieces_below : ∃ front, pieces (join root (ofNames l)) = front ++ l ∧ front.filter (· ≠ "") = steps root := by
  by_cases empty : root = ""
  · have below : isAbsolute (ofNames l) = false := isAbsolute_ofNames names
    have same : join root (ofNames l) = ofNames l := by simp [join, empty]
    rw [same]
    refine ⟨[], ?_, ?_⟩
    · unfold pieces
      rw [below, splitAll_ofNames names some_]
      rfl
    · rw [empty]
      rfl
  · obtain ⟨front, -, cut, above⟩ := pieces_join empty names some_
    refine ⟨front, cut, ?_⟩
    unfold steps
    rcases above with above | above <;> simp [above]

theorem steps_join : steps (join root (ofNames l)) = steps root ++ l := by
  obtain ⟨front, cut, above⟩ := pieces_below root names some_
  have kept : l.filter (· ≠ "") = l := List.filter_eq_self.mpr fun n member => by simp [(names n member).letters]
  rw [steps, cut, List.filter_append, above, kept]

theorem join_solid : join root (ofNames l) ≠ "" := by
  intro empty
  have none_ : steps root ++ l = [] := by
    rw [← steps_join names some_, empty]
    rfl
  exact some_ (List.append_eq_nil_iff.mp none_).2

theorem join_open : (join root (ofNames l)).toList.getLast? ≠ some '/' := by
  intro slash
  obtain ⟨front, cut, -⟩ := pieces_below root names some_
  obtain ⟨cs, ends⟩ := List.getLast?_eq_some_iff.mp slash
  have last : (cuts (join root (ofNames l))).getLast? = some "" := by
    rw [cuts, ends, Text.splitAll_around, List.map_append]
    simp [Text.splitAll]
  have same : (cuts (join root (ofNames l))).getLast? = l.getLast? := by
    have solid : pieces (join root (ofNames l)) ≠ [] := by simp [cut, some_]
    rw [← List.getLast?_append_of_ne_nil front some_, ← cut]
    rw [pieces_eq] at solid ⊢
    split_ifs at solid ⊢
    · rw [List.getLast?_drop, if_neg (mt List.drop_eq_nil_iff.mpr solid)]
    · rfl
  exact (names "" (List.mem_of_getLast? (same.symm.trans last))).letters rfl

end

/-- The path above one that leads two names on leads one name on. -/
theorem parent?_join (names : ∀ m ∈ l ++ [n], IsName m) (some_ : l ≠ []) :
    ∃ q, parent? (join root (ofNames (l ++ [n]))) = some q ∧ isAbsolute q = isAbsolute root ∧ q ≠ "" ∧
      steps q = steps root ++ l := by
  have longer : l ++ [n] ≠ [] := by simp
  have started : isAbsolute (join root (ofNames (l ++ [n]))) = isAbsolute root := isAbsolute_join (isAbsolute_ofNames names)
  obtain ⟨front, cut, led⟩ := pieces_below root names longer
  have named : ∀ m ∈ l, IsName m := fun m member => names m (List.mem_append_left _ member)
  obtain ⟨l', d, rfl⟩ := (List.eq_nil_or_concat' l).resolve_left some_
  have reversed : (front ++ (l' ++ [d])).reverse = d :: (front ++ l').reverse := by simp
  have whole : (front ++ (l' ++ [d] ++ [n])).reverse = n :: (front ++ (l' ++ [d])).reverse := by simp
  have above : parent? (join root (ofNames (l' ++ [d] ++ [n]))) =
      some (ofReversed (isAbsolute root) (front ++ (l' ++ [d])).reverse) := by
    unfold parent?
    simp only [started, cut, whole, significant_name (names n (by simp)), reversed, significant_name (names d (by simp))]
  have led' : steps (ofReversed (isAbsolute root) (front ++ (l' ++ [d])).reverse) = steps root ++ (l' ++ [d]) := by
    have apart : ∀ m ∈ (front ++ (l' ++ [d])).reverse, '/' ∉ m.toList := by
      intro m member
      refine whole_of_mem_pieces (p := join root (ofNames (l' ++ [d] ++ [n]))) ?_
      rw [cut, ← List.append_assoc]
      exact List.mem_append_left _ (List.mem_reverse.mp member)
    rw [steps_ofReversed _ apart, List.reverse_reverse, List.filter_append, led]
    congr 1
    exact List.filter_eq_self.mpr fun m member => by simp [(named m member).letters]
  have solid : ofReversed (isAbsolute root) (front ++ (l' ++ [d])).reverse ≠ "" := by
    intro empty
    rw [empty] at led'
    exact some_ (List.append_eq_nil_iff.mp led'.symm).2
  exact ⟨_, above, (isAbsolute_parent above).trans started, solid, led'⟩

end

/-! ## Extensions -/

/-- The name ends in a dot and then in a text of these letters in any case; before the dot something stands. -/
def Ends (letters : String) (name : String) : Prop :=
  ∃ stem ext, name.toList = stem ++ '.' :: ext ∧ stem ≠ [] ∧ ext.map Char.toLower = letters.toList

theorem hasExtension_iff {letters p : String} (dotless : '.' ∉ letters.toList) :
    hasExtension letters p = true ↔ ∃ name, fileName? p = some name ∧ Ends letters name := by
  have lower (cs : List Char) : Text.asciiLower (.ofList cs) = letters ↔ cs.map Char.toLower = letters.toList := by
    rw [← String.toList_inj, Text.asciiLower, String.toList_map, String.toList_ofList]
  unfold hasExtension extension?
  cases fileName? p with
  | none => simp
  | some name =>
    simp only [Option.some.injEq, exists_eq_left']
    constructor
    · intro ends
      cases cut : Text.splitOnce '.' name.toList.reverse with
      | none => simp [cut] at ends
      | some halves =>
        obtain ⟨after, before⟩ := halves
        rw [cut] at ends
        have whole : name.toList = before.reverse ++ '.' :: after.reverse := by
          rw [← List.reverse_inj, Text.eq_of_splitOnce cut]
          simp
        by_cases empty : before = []
        · simp [empty] at ends
        · refine ⟨_, _, whole, by simpa using empty, (lower _).mp ?_⟩
          simpa [empty] using ends
    · rintro ⟨stem, ext, whole, solid, same⟩
      have absent : '.' ∉ ext.reverse := by
        intro member
        apply dotless
        rw [← same]
        exact List.mem_map.mpr ⟨'.', List.mem_reverse.mp member, rfl⟩
      have cut : Text.splitOnce '.' name.toList.reverse = some (ext.reverse, stem.reverse) := by
        rw [whole, List.reverse_append, List.reverse_cons, List.append_assoc]
        exact Text.splitOnce_append absent _
      have letters' := (lower ext).mpr same
      simp [cut, solid, letters']

end Path
end PageSpec
