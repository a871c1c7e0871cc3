import PageSpec.Proofs.Files.Paths
import PageSpec.Proofs.Suite.Discovery
/-!
Files that only become more. What is at a location stays when directories are made at other ones, a walk that reaches
a location reaches it still, and where every entry lies in a directory, every walk leads into one. Making a directory
with all that are missing above it makes directories only, and without `..` in its path only those.
-/
namespace PageSpec
namespace Files
variable {f g h : Files} {l m here there names : List String} {e : Entry} {n p q : String}

/-! ## Entries -/

@[simp] theorem home_put (f : Files) (l : List String) (e : Entry) : (f.put l e).home = f.home := by
  unfold put
  split <;> rfl

theorem at?_put (f : Files) (l : List String) (e : Entry) (some_ : m ≠ []) :
    (f.put l e).at? m = if m = l then some e else f.at? m := by
  have replaced : ∀ es : List (List String × Entry),
      (es.map fun x => if x.1 = l then (x.1, e) else (x.1, x.2)).lookup m =
        if m = l then (es.lookup l).map fun _ => e else es.lookup m := by
    intro es
    induction es with
    | nil => simp
    | cons x es ih =>
      obtain ⟨k, old⟩ := x
      rw [List.map_cons, List.lookup_cons, List.lookup_cons, List.lookup_cons]
      grind
  unfold at? put
  rw [if_neg some_, if_neg some_]
  by_cases found : (f.entries.lookup l).isSome = true
  · rw [if_pos found]
    refine (replaced f.entries).trans ?_
    obtain ⟨old, there⟩ := Option.isSome_iff_exists.mp found
    rw [there]
    rfl
  · rw [if_neg found, List.lookup_append]
    rw [Bool.not_eq_true, Option.isSome_eq_false_iff, Option.isNone_iff_eq_none] at found
    by_cases same : m = l
    · simp [same, found]
    · simp [same, List.lookup_cons, beq_false_of_ne same]

/-- What is put where nothing is replaces nothing. -/
theorem put_kept (absent : f.at? l = none) (e : Entry) {old : Entry} (found : f.at? m = some old) :
    (f.put l e).at? m = some old := by
  by_cases root : m = []
  · exact root ▸ found
  rw [at?_put f l e root, if_neg, found]
  rintro rfl
  cases absent.symm.trans found

theorem put_made {new : Entry} (found : (f.put l e).at? m = some new) : f.at? m = some new ∨ m = l ∧ new = e := by
  by_cases root : m = []
  · exact .inl (root ▸ found)
  rw [at?_put f l e root] at found
  by_cases same : m = l
  · rw [if_pos same] at found
    exact .inr ⟨same, (Option.some.inj found).symm⟩
  · rw [if_neg same] at found
    exact .inl found

theorem ne_root (absent : f.at? l = none) : l ≠ [] := by
  rintro rfl
  cases absent

/-- Every entry lies in a directory. -/
def Rooted (f : Files) : Prop := ∀ l n, f.at? (l ++ [n]) ≠ none → f.at? l = some .directory

theorem rooted_of_entries (housed : ∀ x ∈ f.entries, f.at? x.1.dropLast = some .directory) : Rooted f := by
  intro l n found
  rw [at?, if_neg (by simp)] at found
  obtain ⟨e, found⟩ := Option.ne_none_iff_exists'.mp found
  obtain ⟨before, after, same, -⟩ := List.lookup_eq_some_iff.mp found
  have above := housed (l ++ [n], e) (by simp [same])
  rwa [List.dropLast_concat] at above

theorem Rooted.above (rooted : Rooted f) : ∀ {m : List String}, m ≠ [] → f.at? (l ++ m) ≠ none →
    f.at? l = some .directory := by
  intro m
  induction m using List.reverseRecOn with
  | nil => intro some_; exact absurd rfl some_
  | append_singleton m n ih =>
    intro _ found
    have last : f.at? (l ++ m) = some .directory := rooted _ n (by rwa [List.append_assoc])
    by_cases done : m = []
    · rwa [done, List.append_nil] at last
    · exact ih done (by rw [last]; exact Option.some_ne_none _)

/-- A location at which something can be: the root, or one in a directory. -/
def Housed (f : Files) (l : List String) : Prop := ∀ m n, l = m ++ [n] → f.at? m = some .directory

theorem Rooted.housed (rooted : Rooted f) (found : f.at? l ≠ none) : Housed f l := by
  rintro m n rfl
  exact rooted m n found

theorem Rooted.put (rooted : Rooted f) (housed : Housed f l) (file : f.at? l ≠ some .directory ∨ e = .directory) :
    Rooted (f.put l e) := by
  intro m n found
  by_cases root : m = []
  · rw [root]
    rfl
  rw [at?_put f l e (by simp)] at found
  have above : f.at? m = some .directory := by
    by_cases same : m ++ [n] = l
    · exact housed m n same.symm
    · rw [if_neg same] at found
      exact rooted m n found
  rw [at?_put f l e root]
  by_cases same : m = l
  · rw [if_pos same]
    rcases file with file | directory
    · exact absurd (same ▸ above) file
    · rw [directory]
  · rw [if_neg same]
    exact above

/-! ## Walks -/

theorem walk_append : ∀ (names more here : List String),
    f.walk here (names ++ more) = (f.walk here names).bind (f.walk · more)
  | [], _, _ => rfl
  | n :: names, more, here => by
    simp only [List.cons_append, walk, walk_append names more]
    split
    · rfl
    · split
      · rfl
      · split <;> rfl
    · rfl

theorem walk_name (directory : f.at? here = some .directory) (name : Path.IsName n) (names : List String) :
    f.walk here (n :: names) = f.walk (here ++ [n]) names := by
  rw [walk, directory]
  simp only [if_neg name.notHere, if_neg name.notAbove]

/-- A walk only asks for directories. -/
theorem walk_kept (kept : ∀ l, f.at? l = some .directory → g.at? l = some .directory) :
    ∀ {names here there : List String}, f.walk here names = .ok there → g.walk here names = .ok there
  | [], _, _, led => led
  | n :: names, here, there, led => by
    rw [walk] at led ⊢
    cases found : f.at? here with
    | none => simp [found] at led
    | some e =>
      rw [found] at led
      cases e with
      | directory =>
        rw [kept here found]
        simp only at led ⊢
        split_ifs at led ⊢ with dot up
        · exact walk_kept kept led
        · exact walk_kept kept led
        · exact walk_kept kept led
      | text s => simp at led
      | picture bs => simp at led

theorem walk_start (led : f.walk here (n :: names) = .ok there) : f.at? here = some .directory := by
  rw [walk] at led
  split at led
  · cases led
  · assumption
  · cases led

theorem housed_root (f : Files) : Housed f [] := by
  intro m n same
  simp at same

/-- Where every entry lies in a directory, a walk leads into one. -/
theorem walk_housed (rooted : Rooted f) : ∀ {names here there : List String}, (names = [] → Housed f here) →
    f.walk here names = .ok there → Housed f there
  | [], here, there, housed, led => Except.ok.inj led ▸ housed rfl
  | n :: names, here, there, _, led => by
    have directory := walk_start led
    have housed : Housed f here := rooted.housed (by rw [directory]; exact Option.some_ne_none _)
    rw [walk, directory] at led
    simp only at led
    split_ifs at led with dot up
    · exact walk_housed rooted (fun _ => housed) led
    · refine walk_housed rooted (fun _ => ?_) led
      by_cases root : here = []
      · rw [root]
        exact housed_root f
      · obtain ⟨m, last, split⟩ := List.eq_nil_or_concat' here |>.resolve_left root
        rw [split, List.dropLast_concat]
        refine rooted.housed ?_
        rw [housed m last split]
        exact Option.some_ne_none _
    · refine walk_housed rooted (fun _ m k same => ?_) led
      rwa [← List.append_inj_left' same rfl]

/-- Names without `..` are added to a location, but for dots. -/
theorem walk_flat : ∀ {names here there : List String}, ".." ∉ names → f.walk here names = .ok there →
    there = here ++ names.filter (· ≠ ".")
  | [], here, there, _, led => by
    rw [← Except.ok.inj led]
    simp
  | n :: names, here, there, flat, led => by
    have directory := walk_start led
    obtain ⟨first, later⟩ := not_or.mp (mt List.mem_cons.mpr flat)
    rw [walk, directory] at led
    simp only [if_neg (Ne.symm first)] at led
    split_ifs at led with dot
    · rw [walk_flat later led, List.filter_cons_of_neg (by simp [dot])]
    · rw [walk_flat later led, List.filter_cons_of_pos (by simpa using dot), List.append_assoc]
      rfl

/-- Names without `..` lead to a directory that is there. -/
theorem walk_down (rooted : Rooted f) : ∀ {names here : List String}, ".." ∉ names →
    f.at? (here ++ names.filter (· ≠ ".")) = some .directory →
    f.walk here names = .ok (here ++ names.filter (· ≠ "."))
  | [], here, _, _ => by simp [walk]
  | n :: names, here, flat, found => by
    obtain ⟨first, later⟩ := not_or.mp (mt List.mem_cons.mpr flat)
    have directory : f.at? here = some .directory := by
      by_cases done : (n :: names).filter (· ≠ ".") = []
      · rwa [done, List.append_nil] at found
      · exact rooted.above done (by rw [found]; exact Option.some_ne_none _)
    rw [walk, directory]
    simp only [if_neg (Ne.symm first)]
    by_cases dot : n = "."
    · rw [if_pos dot]
      rw [List.filter_cons_of_neg (by simp [dot])] at found ⊢
      exact walk_down rooted later found
    · rw [if_neg dot]
      rw [List.filter_cons_of_pos (by simpa using dot), List.append_cons here n (names.filter (· ≠ "."))]
        at found ⊢
      exact walk_down rooted later found

/-! ## Making directories -/

theorem exists_iff : f.exists_ p = true ↔ ∃ l, f.location p = .ok l ∧ f.at? l ≠ none := by
  unfold exists_
  cases located : f.location p with
  | error e =>
    have failed : f.entry p = .error e := by
      unfold entry entryFrom
      rw [show f.locationFrom f.home p = .error e from located]
      rfl
    simp [failed, Except.isOk, Except.toBool]
  | ok l =>
    rw [entry_eq located]
    cases found : f.at? l <;> simp [found, Except.isOk, Except.toBool]

theorem bareLocation_eq (solid : p ≠ "") (here : List String) :
    f.bareLocation here p = f.walk (start here p) (Path.steps p) := if_neg solid

theorem bareLocation_solid (led : f.bareLocation here p = .ok l) : p ≠ "" := by
  rintro rfl
  cases led

theorem start_congr (started : Path.isAbsolute p = Path.isAbsolute q) : start here p = start here q := by
  rw [start, start, started]

/-- Paths below a directory start where the directory does. -/
theorem start_join {root : String} (named : ∀ n ∈ l, Path.IsName n) :
    start here (Path.join root (Path.ofNames l)) = start here root := by
  rw [start, start, Path.isAbsolute_join (Path.isAbsolute_ofNames named)]

/-- What a path that is written leads to lies in a directory. -/
theorem bareLocation_housed (rooted : Rooted f) (led : f.bareLocation here p = .ok l) : Housed f l := by
  have solid := bareLocation_solid led
  rw [bareLocation_eq solid] at led
  refine walk_housed rooted (fun none_ => ?_) led
  -- Only slashes lead nowhere, and they start at the root.
  have absolute : Path.isAbsolute p = true := Path.isAbsolute_of_steps none_ solid
  rw [start, if_pos absolute]
  exact housed_root f

/-- The slashes at the end of a path do not matter for a directory. -/
theorem isDirectory_bare : f.isDirectory p = true ↔
    ∃ l, f.bareLocation f.home p = .ok l ∧ f.at? l = some .directory := by
  rw [isDirectory_iff]
  by_cases empty : p = ""
  · simp [location, locationFrom, bareLocation, empty]
  · have same : f.location p =
        f.walk (start f.home p) (if p.toList.getLast? = some '/' then Path.steps p ++ ["."] else Path.steps p) :=
      if_neg empty
    rw [same, bareLocation_eq empty]
    by_cases slash : p.toList.getLast? = some '/'
    · rw [if_pos slash, walk_append]
      cases led : f.walk (start f.home p) (Path.steps p) with
      | error e => simp [Except.bind]
      | ok l =>
        cases found : f.at? l with
        | none => simp [Except.bind, walk, found]
        | some e => cases e <;> simp [Except.bind, walk, found]
    · rw [if_neg slash]

section
variable {root : String} (named : ∀ n ∈ l, Path.IsName n) (some_ : l ≠ [])
include named some_

theorem bareLocation_join : f.bareLocation here (Path.join root (Path.ofNames l)) =
    (f.walk (start here root) (Path.steps root)).bind (f.walk · l) := by
  rw [bareLocation_eq (Path.join_solid named some_), start_join named, Path.steps_join named some_, walk_append]

theorem location_join : f.location (Path.join root (Path.ofNames l)) =
    (f.walk (start f.home root) (Path.steps root)).bind (f.walk · l) := by
  rw [← bareLocation_join named some_]
  unfold location locationFrom bareLocation
  simp only [if_neg (Path.join_open named some_)]

end

/-- What making directories on the way to a path may change: it adds directories, and without `..` in the path only
such as the path goes through. -/
structure Spreads (p : String) (f g : Files) : Prop where
  kept : ∀ l e, f.at? l = some e → g.at? l = some e
  made : ∀ l e, g.at? l = some e → f.at? l = some e ∨
    e = .directory ∧ (".." ∉ Path.steps p → l <+: start f.home p ++ (Path.steps p).filter (· ≠ "."))
  rooted : Rooted f → Rooted g
  home : g.home = f.home

namespace Spreads

theorem refl (p : String) (f : Files) : Spreads p f f := ⟨fun _ _ => id, fun _ _ => .inl, id, rfl⟩

theorem trans (first : Spreads p f g) (second : Spreads p g h) : Spreads p f h := by
  refine ⟨fun l e found => second.kept l e (first.kept l e found), fun l e found => ?_,
    second.rooted ∘ first.rooted, second.home.trans first.home⟩
  rcases second.made l e found with there | new
  · exact first.made l e there
  · rw [first.home] at new
    exact .inr new

theorem longer (above : Path.parent? p = some q) (spread : Spreads q f g) : Spreads p f g := by
  have lead := Path.steps_parent above
  refine ⟨spread.kept, fun l e found => ?_, spread.rooted, spread.home⟩
  rcases spread.made l e found with there | ⟨directory, near⟩
  · exact .inl there
  · refine .inr ⟨directory, fun flat => ?_⟩
    have near := near fun up => flat (lead.subset up)
    rw [start, Path.isAbsolute_parent above] at near
    exact near.trans ((List.prefix_append_right_inj _).mpr (lead.filter _))

end Spreads

theorem ensureDirectory_cases (made : f.ensureDirectory p = .ok g) : (f.isDirectory p = true ∧ g = f) ∨
    ∃ l, f.bareLocation f.home p = .ok l ∧ f.at? l = none ∧ g = f.put l .directory := by
  unfold ensureDirectory makeDirectory at made
  cases led : f.bareLocation f.home p with
  | error e =>
    simp only [led, bind, Except.bind] at made
    split_ifs at made with directory
    exact .inl ⟨directory, (Except.ok.inj made).symm⟩
  | ok l =>
    cases found : f.at? l with
    | none =>
      simp only [led, found, bind, Except.bind] at made
      exact .inr ⟨l, rfl, found, (Except.ok.inj made).symm⟩
    | some e =>
      simp only [led, found, bind, Except.bind] at made
      split_ifs at made with directory
      exact .inl ⟨directory, (Except.ok.inj made).symm⟩

theorem ensureDirectory_spreads (made : f.ensureDirectory p = .ok g) : Spreads p f g := by
  rcases ensureDirectory_cases made with ⟨-, rfl⟩ | ⟨l, led, absent, rfl⟩
  · exact .refl p g
  have housed (rooted : Rooted f) := bareLocation_housed rooted led
  rw [bareLocation_eq (bareLocation_solid led)] at led
  refine ⟨fun m e => put_kept absent _, fun m e found => ?_, fun rooted => rooted.put (housed rooted) (.inr rfl),
    home_put f l _⟩
  rcases put_made found with there | ⟨same, directory⟩
  · exact .inl there
  · exact .inr ⟨directory, fun flat => by rw [same, walk_flat flat led]⟩

theorem ensureDirectory_stands (made : f.ensureDirectory p = .ok g) : g.isDirectory p = true := by
  have spread := ensureDirectory_spreads made
  rcases ensureDirectory_cases made with ⟨directory, rfl⟩ | ⟨l, led, absent, rfl⟩
  · exact directory
  have solid := bareLocation_solid led
  refine isDirectory_bare.mpr ⟨l, ?_, ?_⟩
  · rw [bareLocation_eq solid] at led ⊢
    rw [spread.home]
    exact walk_kept (fun m => spread.kept m _) led
  · rw [at?_put f l _ (ne_root absent), if_pos rfl]

/-- However far it comes, making a directory with those above it adds directories. -/
theorem makeUpTo_spreads : ∀ (n : Nat) (p : String), Spreads p f (f.makeUpTo n p).2
  | 0, p => .refl p f
  | n + 1, p => by
    unfold makeUpTo
    split_ifs
    · exact .refl p f
    split
    · rename_i g made
      exact ensureDirectory_spreads made
    · split
      · exact .refl p f
      · rename_i q above
        have spread := (makeUpTo_spreads n q).longer above
        split
        · rename_i e g came
          rwa [came] at spread
        · rename_i g came
          rw [came] at spread
          split
          · rename_i made
            exact spread.trans (ensureDirectory_spreads made)
          · exact spread
    · exact .refl p f

theorem makeAll_spreads (f : Files) (p : String) : Spreads p f (f.makeAll p).2 := makeUpTo_spreads _ p

theorem makeAll_stands (solid : p ≠ "") (made : f.makeAll p = (.ok (), g)) : g.isDirectory p = true := by
  unfold makeAll makeUpTo at made
  rw [if_neg solid] at made
  split at made
  · rename_i h ensured
    cases made
    exact ensureDirectory_stands ensured
  · split at made
    · cases made
    · split at made
      · cases made
      · split at made
        · rename_i h ensured
          cases made
          exact ensureDirectory_stands ensured
        · cases made
  · cases made

/-- Where the directory above is there, none but the last one is made. -/
theorem makeAll_eq (led : f.bareLocation f.home p = .ok l) : f.makeAll p = match f.at? l with
    | none => (.ok (), f.put l .directory)
    | some .directory => (.ok (), f)
    | some _ => (.error .exists_, f) := by
  have solid := bareLocation_solid led
  have directory : f.isDirectory p = true ↔ f.at? l = some .directory := by
    rw [isDirectory_bare]
    simp [led]
  have ensured : f.ensureDirectory p = match f.at? l with
      | none => .ok (f.put l .directory)
      | some .directory => .ok f
      | some _ => .error .exists_ := by
    unfold ensureDirectory makeDirectory
    cases found : f.at? l with
    | none => simp [led, found, bind, Except.bind, pure, Except.pure]
    | some e =>
      rw [found] at directory
      cases e <;> simp [led, found, bind, Except.bind, throw, throwThe, MonadExceptOf.throw, directory]
  unfold makeAll makeUpTo
  rw [if_neg solid, ensured]
  cases found : f.at? l with
  | none => rfl
  | some e => cases e <;> rfl

end Files
end PageSpec
