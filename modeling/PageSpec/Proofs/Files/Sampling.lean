import PageSpec.CommandLine.Sample
import PageSpec.Proofs.Files.Growth
/-!
Writing the sample into a directory. Where the directory is there, a file is written where none is, with the directory
above it, and whatever was there stays; the answer has exactly the paths of the files that were not there. A path that
goes into missing directories and back out of them by `..` leads nowhere before these are made, and so hides what it
leads to afterwards.
-/
namespace PageSpec.Sample
open Files (Rooted Spreads)
open PageSpec.Path (IsName ofNames steps)
variable {root d n content path : String} {R : List String} {force : Bool} {f g : Files} {xs : List (String × String)}

/-! ## One file -/

/-- A directory that is there, with its location. -/
structure Stands (root : String) (R : List String) (f : Files) : Prop where
  led : f.walk (Files.start f.home root) (steps root) = .ok R
  directory : f.at? R = some .directory
  rooted : Rooted f

/-- A file with a text is put at a location, with the directory above it; nothing else changes. -/
structure Gains (l : List String) (content : String) (f g : Files) : Prop where
  there : g.at? l = some (.text content)
  kept : ∀ m e, m ≠ l → f.at? m = some e → g.at? m = some e
  new : ∀ m e, m ≠ l → g.at? m = some e → f.at? m = some e ∨ e = .directory ∧ ∃ n, l = m ++ [n]

/-- What hinders a file from being written: a file in the place of its directory, or a directory in its own. -/
def Hindered (f : Files) (l : List String) : Prop :=
  (∃ e, f.at? l.dropLast = some e ∧ e ≠ .directory) ∨ f.at? l = some .directory

/-- What comes of placing a file below a directory that is there. -/
inductive Placed (root : String) (R : List String) (d n : String) (force : Bool) (content : String) (f : Files) :
    Except IoFault (Option Files) → Prop
  | kept (gentle : force = false) (there : f.at? (R ++ [d, n]) ≠ none) :
    Placed root R d n force content f (.ok none)
  | made {g : Files} (open_ : force = true ∨ f.at? (R ++ [d, n]) = none) (free : ¬ Hindered f (R ++ [d, n]))
    (gains : Gains (R ++ [d, n]) content f g) (stands : Stands root R g) : Placed root R d n force content f (.ok (some g))
  | failed {e : IoFault} (open_ : force = true ∨ f.at? (R ++ [d, n]) = none) (hindered : Hindered f (R ++ [d, n]))
    (untouched : (makeAbove (Path.join root (ofNames [d, n])) f).2 = f) :
    Placed root R d n force content f (.error e)

theorem dropLast_two (R : List String) (d n : String) : (R ++ [d, n]).dropLast = R ++ [d] := by
  rw [List.append_cons R d [n], List.dropLast_concat]

theorem gains_put {l : List String} (some_ : l ≠ []) (content : String) (f : Files) :
    Gains l content f (f.put l (.text content)) := by
  have moved (m : List String) (other : m ≠ l) : (f.put l (.text content)).at? m = f.at? m := by
    by_cases root : m = []
    · rw [root]
      rfl
    · rw [Files.at?_put f l _ root, if_neg other]
  refine ⟨?_, fun m e other found => (moved m other).trans found, fun m e other found => .inl (moved m other ▸ found)⟩
  rw [Files.at?_put f l _ some_, if_pos rfl]

/-- At the same depth nothing else changes. -/
theorem Gains.elsewhere {l m : List String} (gains : Gains l content f g) (other : m ≠ l)
    (deep : m.length = l.length) : g.at? m = f.at? m := by
  cases found : f.at? m with
  | some e => exact gains.kept m e other found
  | none =>
    by_contra changed
    obtain ⟨e, changed⟩ := Option.ne_none_iff_exists'.mp changed
    rcases gains.new m e other changed with there | ⟨-, n, rfl⟩
    · cases found.symm.trans there
    · simp at deep

theorem Gains.hindered {l m : List String} (gains : Gains l content f g) (other : m ≠ l)
    (deep : m.length = l.length) : Hindered g m ↔ Hindered f m := by
  unfold Hindered
  rw [gains.elsewhere other deep]
  refine or_congr_left (exists_congr fun e => and_congr_left fun file => ?_)
  have above : m.dropLast ≠ l := by
    intro same
    have shorter := congrArg List.length same
    rw [List.length_dropLast, deep] at shorter
    have start : l = [] := List.eq_nil_of_length_eq_zero (by omega)
    exact other (by rw [start]; exact List.eq_nil_of_length_eq_zero (by rw [deep, start]; rfl))
  constructor
  · intro found
    exact (gains.new _ e above found).resolve_right fun directory => file directory.1
  · exact gains.kept _ e above

/-- The directory of the file may have been made before. -/
theorem Gains.behind {m : List String} (absent : f.at? m = none)
    (gains : Gains (m ++ [n]) content (f.put m .directory) g) : Gains (m ++ [n]) content f g := by
  refine ⟨gains.there, fun l e other found => gains.kept l e other (Files.put_kept absent _ found),
    fun l e other found => ?_⟩
  rcases gains.new l e other found with there | above
  · rcases Files.put_made there with old | ⟨same, directory⟩
    · exact .inl old
    · exact .inr ⟨directory, n, by rw [same]⟩
  · exact .inr above

theorem Stands.grow (stands : Stands root R f) (kept : ∀ l, f.at? l = some .directory → g.at? l = some .directory)
    (rooted : Rooted g) (home : g.home = f.home) : Stands root R g := by
  refine ⟨?_, kept R stands.directory, rooted⟩
  rw [home]
  exact Files.walk_kept kept stands.led

/-- A directory that is made in one that is there. -/
theorem Stands.below (stands : Stands root R f) (d : String) :
    Stands root R (f.put (R ++ [d]) .directory) := by
  refine stands.grow (fun l there => ?_) (stands.rooted.put (fun m k same => ?_) (.inr rfl)) (Files.home_put f _ _)
  · by_cases start : l = []
    · rw [start]
      rfl
    rw [Files.at?_put f _ _ start, there, ite_self]
  · rw [← List.append_inj_left' same rfl]
    exact stands.directory

section
variable (dir : IsName d) (name : IsName n) (stands : Stands root R f)
include dir name

theorem two_names : ∀ m ∈ [d, n], IsName m := by
  intro m member
  rcases List.mem_pair.mp member with rfl | rfl
  · exact dir
  · exact name

include stands

theorem walk_below : f.walk R [d, n] = match f.at? (R ++ [d]) with
    | none => .error .notFound
    | some .directory => .ok (R ++ [d, n])
    | some _ => .error .notDirectory := by
  rw [Files.walk_name stands.directory dir, List.append_cons R d [n]]
  cases above : f.at? (R ++ [d]) with
  | none => simp [Files.walk, above]
  | some e =>
    cases e with
    | directory => rw [Files.walk_name above name, Files.walk]
    | text s => simp [Files.walk, above]
    | picture bs => simp [Files.walk, above]

theorem location_below : f.location (Path.join root (ofNames [d, n])) = f.walk R [d, n] := by
  rw [Files.location_join (two_names dir name) (List.cons_ne_nil _ _), stands.led]
  rfl

/-- A path below a directory that is there leads to a file exactly if there is one in its place. -/
theorem exists_below : f.exists_ (Path.join root (ofNames [d, n])) = (f.at? (R ++ [d, n])).isSome := by
  rw [Bool.eq_iff_iff, Files.exists_iff, location_below dir name stands, Option.isSome_iff_ne_none]
  constructor
  · rintro ⟨l, led, found⟩
    rw [walk_below dir name stands] at led
    split at led
    · cases led
    · rwa [← Except.ok.inj led] at found
    · cases led
  · intro found
    have above : f.at? (R ++ [d]) = some .directory := stands.rooted _ n (by rwa [← List.append_cons])
    exact ⟨_, by rw [walk_below dir name stands, above], found⟩

theorem makeAbove_below : makeAbove (Path.join root (ofNames [d, n])) f = match f.at? (R ++ [d]) with
    | none => (.ok (), f.put (R ++ [d]) .directory)
    | some .directory => (.ok (), f)
    | some _ => (.error .exists_, f) := by
  obtain ⟨q, above, started, solid, led⟩ :=
    Path.parent?_join (l := [d]) (n := n) (two_names dir name) (List.cons_ne_nil _ _)
  have located : f.bareLocation f.home q = .ok (R ++ [d]) := by
    rw [Files.bareLocation_eq solid, Files.start_congr started, led, Files.walk_append, stands.led]
    exact Files.walk_name stands.directory dir []
  unfold makeAbove
  rw [show Path.join root (ofNames [d, n]) = Path.join root (ofNames ([d] ++ [n])) from rfl, above]
  exact Files.makeAll_eq located

theorem write_below (e : Entry) (above : f.at? (R ++ [d]) = some .directory) :
    f.write (Path.join root (ofNames [d, n])) e = match f.at? (R ++ [d, n]) with
      | some .directory => .error .isDirectory
      | _ => .ok (f.put (R ++ [d, n]) e) := by
  have led : f.bareLocation f.home (Path.join root (ofNames [d, n])) = .ok (R ++ [d, n]) := by
    rw [Files.bareLocation_join (two_names dir name) (List.cons_ne_nil _ _), stands.led]
    change f.walk R [d, n] = _
    rw [walk_below dir name stands, above]
  have slash : (Path.join root (ofNames [d, n])).toList.getLast? ≠ some '/' :=
    Path.join_open (two_names dir name) (List.cons_ne_nil _ _)
  unfold Files.write Files.writeFrom
  rw [led]
  simp only [bind, Except.bind, if_neg slash]
  cases found : f.at? (R ++ [d, n]) with
  | none => simp; rfl
  | some e => cases e <;> simp <;> rfl

/-- With its directory there, a file is written unless a directory is in its place. -/
theorem write_placed (content : String) (above : f.at? (R ++ [d]) = some .directory)
    (free : f.at? (R ++ [d, n]) ≠ some .directory) :
    ∃ g, f.write (Path.join root (ofNames [d, n])) (.text content) = .ok g ∧
      Gains (R ++ [d, n]) content f g ∧ Stands root R g := by
  have gains := gains_put (l := R ++ [d, n]) (by simp) content f
  refine ⟨_, ?_, gains, stands.grow (fun m directory => ?_) (stands.rooted.put ?_ (.inl free)) (Files.home_put f _ _)⟩
  · rw [write_below dir name stands _ above]
    split
    · contradiction
    · rfl
  · refine gains.kept m _ ?_ directory
    rintro rfl
    exact free directory
  · intro m k same
    rw [List.append_cons R d [n]] at same
    rwa [← List.append_inj_left' same rfl]

/-- A file is kept, or it is written with its directory, or something is in its way and nothing happens. -/
theorem place_below (force : Bool) (content : String) :
    Placed root R d n force content f (place force (Path.join root (ofNames [d, n])) content f) := by
  unfold place
  rw [exists_below dir name stands]
  by_cases keeps : ((f.at? (R ++ [d, n])).isSome && !force) = true
  · rw [if_pos keeps]
    obtain ⟨there, gentle⟩ := Bool.and_eq_true_iff.mp keeps
    exact .kept (by simpa using gentle) (Option.isSome_iff_ne_none.mp there)
  rw [if_neg keeps]
  have open_ : force = true ∨ f.at? (R ++ [d, n]) = none := by
    cases force <;> simp_all
  have made := makeAbove_below dir name stands
  cases above : f.at? (R ++ [d]) with
  | none =>
    rw [above] at made
    have inside : R ++ [d, n] = R ++ [d] ++ [n] := List.append_cons R d [n]
    have absent : f.at? (R ++ [d, n]) = none := by
      by_contra found
      rw [inside] at found
      cases above.symm.trans (stands.rooted _ _ found)
    have grown := stands.below d
    have there : (f.put (R ++ [d]) .directory).at? (R ++ [d]) = some .directory := by
      rw [Files.at?_put f _ _ (by simp), if_pos rfl]
    have free : (f.put (R ++ [d]) .directory).at? (R ++ [d, n]) ≠ some .directory := by
      rw [Files.at?_put f _ _ (by simp), if_neg (by simp), absent]
      exact nofun
    obtain ⟨g, written, gains, stands'⟩ := write_placed dir name grown content there free
    have open' : ¬ Hindered f (R ++ [d, n]) := by
      rintro (⟨e, file, -⟩ | directory)
      · rw [dropLast_two, above] at file
        cases file
      · cases absent.symm.trans directory
    rw [made]
    simp only [written]
    rw [inside] at gains
    exact .made open_ open' (inside ▸ gains.behind above) stands'
  | some e =>
    rw [above] at made
    cases e with
    | directory =>
      rw [made]
      by_cases free : f.at? (R ++ [d, n]) = some .directory
      · simp only [write_below dir name stands _ above, free]
        exact .failed open_ (.inr free) (by rw [made])
      · obtain ⟨g, written, gains, grown⟩ := write_placed dir name stands content above free
        simp only [written]
        refine .made open_ ?_ gains grown
        rintro (⟨e, file, other⟩ | directory)
        · rw [dropLast_two, above] at file
          exact other (Option.some.inj file).symm
        · exact free directory
    | text s =>
      rw [made]
      exact .failed open_ (.inl ⟨.text s, (dropLast_two R d n).symm ▸ above, nofun⟩) (by rw [made])
    | picture bs =>
      rw [made]
      exact .failed open_ (.inl ⟨.picture bs, (dropLast_two R d n).symm ▸ above, nofun⟩) (by rw [made])

end

/-! ## A run -/

/-- The location of a file of the sample below a directory. -/
def spot (R : List String) (x : String × String) : List String := R ++ steps x.1

/-- Files to write: each has a directory of its own, and no two are the same. -/
structure Tidy (xs : List (String × String)) : Prop where
  named : ∀ x ∈ xs, ∃ d n, IsName d ∧ IsName n ∧ x.1 = ofNames [d, n]
  apart : (xs.map fun x => steps x.1).Nodup

/-- A file that a run has to write and cannot. -/
def Stuck (R : List String) (force : Bool) (f : Files) (x : String × String) : Prop :=
  (force = true ∨ f.at? (spot R x) = none) ∧ Hindered f (spot R x)

/-- What a run over some files below a directory leaves behind. -/
structure Ran (root : String) (R : List String) (force : Bool) (xs : List (String × String)) (f : Files)
    (r : Except IoFault (List String) × Files) : Prop where
  stands : Stands root R r.2
  kept : ∀ m e, force = false ∨ (∀ x ∈ xs, m ≠ spot R x) → f.at? m = some e → r.2.at? m = some e
  made : ∀ paths, r.1 = .ok paths →
    paths = (xs.filter fun x => force || (f.at? (spot R x)).isNone).map fun x => Path.join root x.1
  there : ∀ paths, r.1 = .ok paths → ∀ x ∈ xs,
    r.2.at? (spot R x) = if force then some (.text x.2) else (f.at? (spot R x)).or (some (.text x.2))
  failed : (∃ e, r.1 = .error e) ↔ ∃ x ∈ xs, Stuck R force f x

theorem Tidy.spot_eq (tidy : Tidy xs) {x : String × String} (member : x ∈ xs) :
    ∃ d n, IsName d ∧ IsName n ∧ x.1 = ofNames [d, n] ∧ spot R x = R ++ [d, n] := by
  obtain ⟨d, n, dir, name, same⟩ := tidy.named x member
  refine ⟨d, n, dir, name, same, ?_⟩
  rw [spot, same, Path.steps_ofNames (two_names dir name) (List.cons_ne_nil _ _)]

theorem Tidy.tail {x : String × String} (tidy : Tidy (x :: xs)) : Tidy xs :=
  ⟨fun y member => tidy.named y (List.mem_cons_of_mem x member), (List.nodup_cons.mp tidy.apart).2⟩

theorem Tidy.spot_ne {x y : String × String} (tidy : Tidy (x :: xs)) (member : y ∈ xs) : spot R y ≠ spot R x := by
  intro same
  refine (List.nodup_cons.mp tidy.apart).1 (List.mem_map.mpr ⟨y, member, ?_⟩)
  exact List.append_cancel_left same

theorem writeAll_cons (root : String) (force : Bool) (name content : String) (xs : List (String × String)) (f : Files) :
    writeAll root force ((name, content) :: xs) f = match place force (Path.join root name) content f with
      | .error e => (.error e, (makeAbove (Path.join root name) f).2)
      | .ok none => writeAll root force xs f
      | .ok (some g) => ((writeAll root force xs g).1.map (Path.join root name :: ·), (writeAll root force xs g).2) := by
  rfl

/-- At the places of a tidy list the paths are equally long. -/
theorem Tidy.spot_length {x y : String × String} (tidy : Tidy xs) (member : x ∈ xs) (member' : y ∈ xs) :
    (spot R y).length = (spot R x).length := by
  obtain ⟨d, n, -, -, -, here⟩ := tidy.spot_eq (R := R) member
  obtain ⟨d', n', -, -, -, there⟩ := tidy.spot_eq (R := R) member'
  simp [here, there]

/-- A file that is there is passed by. -/
theorem Ran.skip {x : String × String} {r : Except IoFault (List String) × Files} (there : f.at? (spot R x) ≠ none)
    (rest : Ran root R false xs f r) : Ran root R false (x :: xs) f r := by
  obtain ⟨e, there⟩ := Option.ne_none_iff_exists'.mp there
  refine ⟨rest.stands, fun m e open_ => rest.kept m e (.inl rfl), fun paths done => ?_,
    fun paths done y member => ?_, ?_⟩
  · rw [rest.made paths done, List.filter_cons_of_neg (by simp [there])]
  · rcases List.mem_cons.mp member with rfl | later
    · simp [there, rest.kept _ _ (.inl rfl) there]
    · exact rest.there paths done y later
  · rw [rest.failed, List.exists_mem_cons_iff, or_iff_right]
    rintro ⟨forced | absent, -⟩
    · cases forced
    · cases there.symm.trans absent

/-- After a file is written, its place and the places of the files to come are as they were. -/
theorem Ran.after {x : String × String} {r : Except IoFault (List String) × Files} (tidy : Tidy (x :: xs))
    (open_ : force = true ∨ f.at? (spot R x) = none) (free : ¬ Hindered f (spot R x))
    (gains : Gains (spot R x) x.2 f g) (rest : Ran root R force xs g r) :
    Ran root R force (x :: xs) f (r.1.map (Path.join root x.1 :: ·), r.2) := by
  have deep {y : String × String} (member : y ∈ xs) : (spot R y).length = (spot R x).length :=
    tidy.spot_length List.mem_cons_self (List.mem_cons_of_mem x member)
  have others {y : String × String} (member : y ∈ xs) : g.at? (spot R y) = f.at? (spot R y) :=
    gains.elsewhere (tidy.spot_ne member) (deep member)
  have first : (force || (f.at? (spot R x)).isNone) = true := by
    rcases open_ with forced | absent
    · rw [forced, Bool.true_or]
    · rw [absent, Option.isNone_none, Bool.or_true]
  refine ⟨rest.stands, fun m e open' found => ?_, fun paths done => ?_, fun paths done y member => ?_, ?_⟩
  · have other : m ≠ spot R x := by
      rintro rfl
      rcases open' with gentle | apart
      · simp [gentle, found] at first
      · exact apart _ List.mem_cons_self rfl
    have later := open'.imp_right fun apart y inside => apart y (List.mem_cons_of_mem _ inside)
    exact rest.kept m e later (gains.kept m e other found)
  · obtain ⟨paths', done', rfl⟩ := ok_of_map done
    have kept : (xs.filter fun y => force || (g.at? (spot R y)).isNone) =
        xs.filter fun y => force || (f.at? (spot R y)).isNone :=
      List.filter_congr fun y member => by rw [others member]
    rw [rest.made _ done', kept, List.filter_cons, if_pos first]
    rfl
  · obtain ⟨paths', done', rfl⟩ := ok_of_map done
    rcases List.mem_cons.mp member with rfl | later
    · have written := rest.kept _ _ (.inr fun z inside => (tidy.spot_ne inside).symm) gains.there
      rcases open_ with forced | absent
      · rw [written, forced, if_pos rfl]
      · rw [written, absent, Option.none_or, ite_self]
    · rw [rest.there _ done' y later, others later]
  · have failing : (∃ e, r.1.map (Path.join root x.1 :: ·) = .error e) ↔ ∃ e, r.1 = .error e := by
      cases r.1 <;> simp [Except.map]
    rw [failing, rest.failed, List.exists_mem_cons_iff, or_iff_right fun stuck => free stuck.2]
    refine exists_congr fun y => and_congr_right fun member => ?_
    unfold Stuck
    rw [others member, gains.hindered (tidy.spot_ne member) (deep member)]

theorem writeAll_ran (force : Bool) : ∀ {xs : List (String × String)} {f : Files}, Tidy xs → Stands root R f →
    Ran root R force xs f (writeAll root force xs f)
  | [], f, _, stands => by
    refine ⟨stands, fun m e _ found => found, ?_, fun paths done x member => (nomatch member), ?_⟩
    · rintro paths ⟨⟩
      rfl
    · exact ⟨fun ⟨e, failed⟩ => (nomatch failed), fun ⟨x, member, _⟩ => (nomatch member)⟩
  | (name, content) :: xs, f, tidy, stands => by
    obtain ⟨d, n, dir, last, same, here⟩ := tidy.spot_eq (R := R) List.mem_cons_self
    simp only at same
    subst same
    have placed := place_below dir last stands force content
    rw [writeAll_cons]
    generalize place force (Path.join root (ofNames [d, n])) content f = o at placed
    cases placed with
    | kept gentle there =>
      subst gentle
      exact (writeAll_ran false tidy.tail stands).skip (here ▸ there)
    | made open_ free gains grown =>
      rw [← here] at open_ free gains
      exact (writeAll_ran force tidy.tail grown).after tidy open_ free gains
    | failed open_ hindered untouched =>
      simp only [untouched]
      rw [← here] at open_ hindered
      exact ⟨stands, fun m e _ found => found, nofun, nofun,
        ⟨fun _ => ⟨_, List.mem_cons_self, open_, hindered⟩, fun _ => ⟨_, rfl⟩⟩⟩

/-! ## Directories on the way -/

section
variable (dir : IsName d) (name : IsName n) (rooted : Rooted f)
include dir name rooted

theorem stands_of_exists (there : f.exists_ (Path.join root (ofNames [d, n])) = true) : ∃ R, Stands root R f := by
  obtain ⟨l, located, -⟩ := Files.exists_iff.mp there
  rw [Files.location_join (two_names dir name) (List.cons_ne_nil _ _)] at located
  obtain ⟨R, led, more⟩ := ok_of_bind located
  exact ⟨R, led, Files.walk_start more, rooted⟩

theorem stands_of_made (made : makeAbove (Path.join root (ofNames [d, n])) f = (.ok (), g)) :
    ∃ R, Stands root R g ∧ g.at? (R ++ [d]) = some .directory := by
  obtain ⟨q, above, started, solid, steps⟩ :=
    Path.parent?_join (l := [d]) (n := n) (two_names dir name) (List.cons_ne_nil _ _)
  have parent : Path.parent? (Path.join root (ofNames [d, n])) = some q := above
  unfold makeAbove at made
  simp only [parent] at made
  obtain ⟨l, led, directory⟩ := Files.isDirectory_bare.mp (Files.makeAll_stands solid made)
  rw [Files.bareLocation_eq solid, Files.start_congr started, steps, Files.walk_append] at led
  obtain ⟨R, led, more⟩ := ok_of_bind led
  have here := Files.walk_start more
  rw [Files.walk_name here dir, Files.walk, Except.ok.injEq] at more
  have spread := Files.makeAll_spreads f q
  rw [made] at spread
  exact ⟨R, ⟨led, here, spread.rooted rooted⟩, more ▸ directory⟩

end

variable (root) in
/-- What is made above a file lies on the way to its directory. -/
theorem makeAbove_spreads (dir : IsName d) (name : IsName n) (f : Files) :
    ∃ q, Files.start f.home q = Files.start f.home root ∧ steps q = steps root ++ [d] ∧
      Spreads q f (makeAbove (Path.join root (ofNames [d, n])) f).2 := by
  obtain ⟨q, above, started, -, lead⟩ :=
    Path.parent?_join (l := [d]) (n := n) (two_names dir name) (List.cons_ne_nil _ _)
  have parent : Path.parent? (Path.join root (ofNames [d, n])) = some q := above
  refine ⟨q, Files.start_congr started, lead, ?_⟩
  unfold makeAbove
  rw [parent]
  exact Files.makeAll_spreads f q

theorem makeAbove_kept (path : String) (f : Files) : ∀ l e, f.at? l = some e → (makeAbove path f).2.at? l = some e := by
  intro l e found
  unfold makeAbove
  split
  · exact (Files.makeAll_spreads f _).kept l e found
  · exact found

theorem makeAbove_home (path : String) (f : Files) : (makeAbove path f).2.home = f.home := by
  unfold makeAbove
  split
  · exact (Files.makeAll_spreads f _).home
  · rfl

theorem makeAbove_made (path : String) (f : Files) : ∀ l e, (makeAbove path f).2.at? l = some e →
    f.at? l = some e ∨ e = .directory := by
  intro l e found
  unfold makeAbove at found
  split at found
  · exact ((Files.makeAll_spreads f _).made l e found).imp_right And.left
  · exact .inl found

/-! ## The sample -/

/-- The first file of the sample. -/
def first : String × String := (ofNames ["fixtures", "example.json"], document)
/-- The other files of the sample. -/
def others : List (String × String) :=
  [(ofNames ["hooks", "before-example.json"], hook), (ofNames ["help", "plugin-func.yaml"], functions)]

theorem files_eq : files = first :: others := by
  have fixture : ofNames ["fixtures", "example.json"] = "fixtures/example.json" := by decide +kernel
  have before : ofNames ["hooks", "before-example.json"] = "hooks/before-example.json" := by decide +kernel
  have help : ofNames ["help", "plugin-func.yaml"] = "help/plugin-func.yaml" := by decide +kernel
  rw [first, others, fixture, before, help]
  rfl

theorem isName_of {n : String} (letters : n ≠ "" ∧ n ≠ "." ∧ n ≠ ".." ∧ '/' ∉ n.toList) : IsName n :=
  ⟨letters.1, letters.2.1, letters.2.2.1, letters.2.2.2⟩

theorem first_named : IsName "fixtures" ∧ IsName "example.json" := ⟨isName_of (by decide), isName_of (by decide)⟩

theorem tidy : Tidy (first :: others) := by
  constructor
  · intro x member
    simp only [others, List.mem_cons, List.not_mem_nil, or_false] at member
    rcases member with rfl | rfl | rfl
    · exact ⟨_, _, isName_of (by decide), isName_of (by decide), rfl⟩
    · exact ⟨_, _, isName_of (by decide), isName_of (by decide), rfl⟩
    · exact ⟨_, _, isName_of (by decide), isName_of (by decide), rfl⟩
  · simp only [first, others, List.map_cons, List.map_nil]
    decide +kernel

/-- Whether there was nothing in `f` at the place that a path has come to lead to in `g`. -/
def fresh (f g : Files) (p : String) : Bool :=
  match g.location p with
  | .ok l => (f.at? l).isNone
  | .error _ => false

/-- Writing the sample destroys nothing and says truly what it made. -/
structure Careful (root : String) (f : Files) : Prop where
  /-- Without force everything that was there stays, whether the run gets through or fails at any of its files. -/
  spares : ∀ l e, f.at? l = some e → (write root false f).2.at? l = some e
  /-- A run that gets through leaves all files there, and its answer has exactly those that were not there before. -/
  makes : ∀ paths g, write root false f = (.ok paths, g) →
    (∀ x ∈ files, g.exists_ (Path.join root x.1) = true) ∧
      paths = (files.map fun x => Path.join root x.1).filter (fresh f g)
  /-- A second run makes nothing. -/
  again : ∀ force paths g, write root force f = (.ok paths, g) → write root false g = (.ok [], g)
  /-- With force the answer has all files, and each holds its own text. -/
  forced : ∀ paths g, write root true f = (.ok paths, g) → (paths = files.map fun x => Path.join root x.1) ∧
    ∀ x ∈ files, g.readText (Path.join root x.1) = .ok x.2

/-- The first file is looked for by a path that leads nowhere yet, and once the directories above it are made something
turns up at a place of the sample that was taken for free, or the other way round. -/
inductive Misled (root : String) (f : Files) : Prop
  /-- The path comes to lead to a file that was there all along. It is lost, unless it has the text of the sample; then
  a run that gets through says that it has made the file. -/
  | overwrites {g : Files} {l : List String} {e : Entry}
    (unseen : f.exists_ (Path.join root first.1) = false)
    (made : makeAbove (Path.join root first.1) f = (.ok (), g))
    (led : g.location (Path.join root first.1) = .ok l) (there : f.at? l = some e) (file : e ≠ .directory)
    (lost : e ≠ .text document ∨ ∃ paths h, write root false f = (.ok paths, h))
  /-- One of the directories is made at the place of a file, so that a run that gets through leaves the file out. -/
  | overlooks {g h : Files} {paths : List String} {x : String × String} {l : List String}
    (unseen : f.exists_ (Path.join root first.1) = false)
    (made : makeAbove (Path.join root first.1) f = (.ok (), g))
    (done : write root false f = (.ok paths, h)) (member : x ∈ files)
    (led : g.location (Path.join root x.1) = .ok l) (absent : f.at? l = none) (turned : g.at? l ≠ none)

section
variable (stands : Stands root R f)
include stands

theorem location_spot (tidy : Tidy xs) {x : String × String} (member : x ∈ xs) (there : f.at? (spot R x) ≠ none) :
    f.location (Path.join root x.1) = .ok (spot R x) := by
  obtain ⟨d, n, dir, name, same, here⟩ := tidy.spot_eq (R := R) member
  rw [here, List.append_cons R d [n]] at there
  have above := stands.rooted _ _ there
  rw [same, location_below dir name stands, walk_below dir name stands, above, here]

theorem exists_spot (tidy : Tidy xs) {x : String × String} (member : x ∈ xs) :
    f.exists_ (Path.join root x.1) = (f.at? (spot R x)).isSome := by
  obtain ⟨d, n, dir, name, same, here⟩ := tidy.spot_eq (R := R) member
  rw [same, exists_below dir name stands, here]

end

theorem fresh_eq {p : String} {l : List String} (located : g.location p = .ok l) : fresh f g p = (f.at? l).isNone := by
  rw [fresh, located]

/-- In terms of paths, the files that were not there are those whose places were free. -/
theorem filter_fresh (stands : Stands root R g) (there : ∀ x ∈ files, g.at? (spot R x) ≠ none) :
    (files.map fun x => Path.join root x.1).filter (fresh f g) =
      (files.filter fun x => (f.at? (spot R x)).isNone).map fun x => Path.join root x.1 := by
  rw [List.filter_map]
  congr 1
  refine List.filter_congr fun x member => ?_
  exact fresh_eq (location_spot stands (files_eq ▸ tidy) member (there x member))

theorem writeAll_settled (all : ∀ x ∈ xs, g.exists_ (Path.join root x.1) = true) :
    writeAll root false xs g = (.ok [], g) := by
  induction xs with
  | nil => rfl
  | cons x xs ih =>
    have kept : place false (Path.join root x.1) x.2 g = .ok none := by
      unfold place
      rw [all x List.mem_cons_self]
      rfl
    rw [writeAll_cons root false x.1 x.2, kept]
    exact ih fun y member => all y (List.mem_cons_of_mem x member)

/-- What makes a run careful, in terms of places. -/
structure Sparing (root : String) (force : Bool) (f : Files) (r : Except IoFault (List String) × Files) : Prop where
  kept : force = false → ∀ l e, f.at? l = some e → r.2.at? l = some e
  done : ∀ paths, r.1 = .ok paths → ∃ R, Stands root R r.2 ∧
    (paths = (files.filter fun x => force || (f.at? (spot R x)).isNone).map fun x => Path.join root x.1) ∧
    ∀ x ∈ files, r.2.at? (spot R x) = if force then some (.text x.2) else (f.at? (spot R x)).or (some (.text x.2))

theorem careful_of_sparing (sparing : ∀ force, Sparing root force f (write root force f)) : Careful root f := by
  have solid (force : Bool) (o : Option Entry) (e : Entry) : (if force then some e else o.or (some e)) ≠ none := by
    cases force <;> cases o <;> simp
  refine ⟨(sparing false).kept rfl, fun paths g done => ?_, fun force paths g done => ?_, fun paths g done => ?_⟩
  · have made := (sparing false).done
    rw [done] at made
    obtain ⟨R, stands, same, there⟩ := made paths rfl
    have all : ∀ x ∈ files, g.at? (spot R x) ≠ none := fun x member => there x member ▸ solid _ _ _
    refine ⟨fun x member => ?_, ?_⟩
    · rw [exists_spot stands (files_eq ▸ tidy) member]
      exact Option.isSome_iff_ne_none.mpr (all x member)
    · rw [filter_fresh stands all]
      exact same
  · have made := (sparing force).done
    rw [done] at made
    obtain ⟨R, stands, -, there⟩ := made paths rfl
    refine writeAll_settled fun x member => ?_
    rw [exists_spot stands (files_eq ▸ tidy) member, there x member]
    exact Option.isSome_iff_ne_none.mpr (solid _ _ _)
  · have made := (sparing true).done
    rw [done] at made
    obtain ⟨R, stands, same, there⟩ := made paths rfl
    refine ⟨by simpa using same, fun x member => ?_⟩
    have text : g.at? (spot R x) = some (.text x.2) := there x member
    have located := location_spot stands (files_eq ▸ tidy) member (text ▸ Option.some_ne_none _)
    unfold Files.readText
    rw [Files.entry_eq located, text]
    rfl

theorem sparing_of_stands (stands : Stands root R f) (force : Bool) : Sparing root force f (write root force f) := by
  have ran := writeAll_ran force (files_eq ▸ tidy) stands
  exact ⟨fun gentle l e => ran.kept l e (.inl gentle),
    fun paths done => ⟨R, ran.stands, ran.made paths done, ran.there paths done⟩⟩

/-- A run whose first file has to be written into `g`, once its directories are made. -/
structure Begun (root : String) (R : List String) (force : Bool) (g : Files)
    (r : Except IoFault (List String) × Files) : Prop where
  stands : Stands root R r.2
  kept : ∀ m e, m ≠ spot R first → force = false ∨ (∀ x ∈ others, m ≠ spot R x) → g.at? m = some e →
    r.2.at? m = some e
  first : r.2.at? (spot R first) = some (.text document)
  made : ∀ paths, r.1 = .ok paths → paths = Path.join root Sample.first.1 ::
    (others.filter fun x => force || (g.at? (spot R x)).isNone).map fun x => Path.join root x.1
  there : ∀ paths, r.1 = .ok paths → ∀ x ∈ others,
    r.2.at? (spot R x) = if force then some (.text x.2) else (g.at? (spot R x)).or (some (.text x.2))

theorem spot_first (R : List String) : spot R first = R ++ ["fixtures", "example.json"] := by
  rw [spot, first, Path.steps_ofNames (two_names first_named.1 first_named.2) (List.cons_ne_nil _ _)]

theorem location_first (stands : Stands root R g) (above : g.at? (R ++ ["fixtures"]) = some .directory) :
    g.location (Path.join root first.1) = .ok (spot R first) := by
  obtain ⟨dir, name⟩ := first_named
  rw [spot_first, first, location_below dir name stands, walk_below dir name stands, above]

section
variable (unseen : f.exists_ (Path.join root first.1) = false)
  (made : makeAbove (Path.join root first.1) f = (.ok (), g)) (stands : Stands root R g)
  (above : g.at? (R ++ ["fixtures"]) = some .directory)
include unseen made stands above

/-- The run goes on from the directories that it has made, unless one of them is at the place of the first file. -/
theorem begun (force : Bool) :
    g.at? (spot R first) = some .directory ∧ (∃ e, write root force f = (.error e, g)) ∨
      g.at? (spot R first) ≠ some .directory ∧ Begun root R force g (write root force f) := by
  obtain ⟨dir, name⟩ := first_named
  have here := spot_first R
  have placed : place force (Path.join root first.1) document f =
      (g.write (Path.join root first.1) (.text document)).map some := by
    unfold place
    rw [unseen, Bool.false_and, if_neg Bool.false_ne_true, made]
  have run : write root force f = match (g.write (Path.join root first.1) (.text document)).map some with
      | .error e => (.error e, g)
      | .ok none => writeAll root force others f
      | .ok (some h) =>
        ((writeAll root force others h).1.map (Path.join root first.1 :: ·), (writeAll root force others h).2) := by
    rw [← placed, write, files_eq]
    have step := writeAll_cons root force first.1 document others f
    rw [made] at step
    exact step
  by_cases taken : g.at? (spot R first) = some .directory
  · refine .inl ⟨taken, .isDirectory, ?_⟩
    rw [here] at taken
    rw [run, first, write_below dir name stands _ above, taken]
    rfl
  · refine .inr ⟨taken, ?_⟩
    rw [here] at taken
    obtain ⟨h, written, gains, stands'⟩ := write_placed dir name stands document above taken
    have ran := writeAll_ran force tidy.tail stands'
    have others_same {x : String × String} (member : x ∈ others) : h.at? (spot R x) = g.at? (spot R x) := by
      obtain ⟨d, n, -, -, -, there⟩ := tidy.tail.spot_eq (R := R) member
      exact gains.elsewhere (here ▸ tidy.spot_ne member) (by simp [there])
    have run' : write root force f =
        ((writeAll root force others h).1.map (Path.join root first.1 :: ·), (writeAll root force others h).2) := by
      rw [run, show g.write (Path.join root first.1) (.text document) = .ok h from written]
      rfl
    rw [run']
    refine ⟨ran.stands, fun m e other open_ found => ?_, ?_, fun paths done => ?_, fun paths done x member => ?_⟩
    · exact ran.kept m e open_ (gains.kept m e (here ▸ other) found)
    · exact ran.kept _ _ (.inr fun x member => (tidy.spot_ne member).symm) (here ▸ gains.there)
    · obtain ⟨paths', done', rfl⟩ := ok_of_map done
      rw [ran.made paths' done']
      congr 2
      exact List.filter_congr fun x member => by rw [others_same member]
    · obtain ⟨paths', done', -⟩ := ok_of_map done
      rw [ran.there paths' done' x member, others_same member]

/-- Unless it is misled, such a run spares what was there. -/
theorem sparing_of_begun (clear : ¬ Misled root f) (force : Bool) : Sparing root force f (write root force f) := by
  have before := makeAbove_kept (Path.join root first.1) f
  rw [made] at before
  rcases begun unseen made stands above force with ⟨-, e, failed⟩ | ⟨free, run⟩
  · rw [failed]
    exact ⟨fun _ => before, nofun⟩
  have led := location_first stands above
  have file {e : Entry} (found : f.at? (spot R first) = some e) : e ≠ .directory := by
    rintro rfl
    exact free (before _ _ found)
  refine ⟨fun gentle l e found => ?_, fun paths done => ⟨R, run.stands, ?_⟩⟩
  · by_cases here : l = spot R first
    · subst here
      by_cases same : e = .text document
      · rw [run.first, same]
      · exact absurd (.overwrites unseen made led found (file found) (.inl same)) clear
    · exact run.kept l e here (.inl gentle) (before l e found)
  rw [run.made paths done, files_eq]
  cases force with
  | true =>
    refine ⟨by simp, fun x member => ?_⟩
    rcases List.mem_cons.mp member with rfl | later
    · exact run.first
    · exact run.there paths done x later
  | false =>
    have whole : write root false f = (.ok paths, (write root false f).2) := Prod.ext done rfl
    have absent : f.at? (spot R first) = none := by
      by_contra there
      obtain ⟨e, found⟩ := Option.ne_none_iff_exists'.mp there
      exact clear (.overwrites unseen made led found (file found) (.inr ⟨_, _, whole⟩))
    have same {x : String × String} (member : x ∈ others) : g.at? (spot R x) = f.at? (spot R x) := by
      have inside : x ∈ files := files_eq ▸ List.mem_cons_of_mem _ member
      cases found : f.at? (spot R x) with
      | some e => exact before _ _ found
      | none =>
        by_contra turned
        exact clear (.overlooks unseen made whole inside (location_spot stands tidy.tail member turned) found turned)
    refine ⟨?_, fun x member => ?_⟩
    · rw [List.filter_cons_of_pos (by simp [absent]), List.map_cons]
      congr 2
      exact List.filter_congr fun x member => by rw [same member]
    · rcases List.mem_cons.mp member with rfl | later
      · rw [run.first, absent]
        rfl
      · rw [run.there paths done x later, same later]

end

/-- A run that cannot even write its first file has made directories at most. -/
theorem sparing_of_failed (failed : ∃ e, place force (Path.join root first.1) document f = .error e) :
    Sparing root force f (write root force f) := by
  obtain ⟨e, failed⟩ := failed
  have run : write root force f = (.error e, (makeAbove (Path.join root first.1) f).2) := by
    have step := writeAll_cons root force first.1 document others f
    rw [failed] at step
    rw [write, files_eq]
    exact step
  rw [run]
  exact ⟨fun _ => makeAbove_kept _ f, nofun⟩

theorem careful_of_clear (rooted : Rooted f) (clear : ¬ Misled root f) : Careful root f := by
  obtain ⟨dir, name⟩ := first_named
  by_cases seen : f.exists_ (Path.join root first.1) = true
  · obtain ⟨R, stands⟩ := stands_of_exists dir name rooted seen
    exact careful_of_sparing (sparing_of_stands stands)
  have unseen := Bool.eq_false_iff.mpr seen
  refine careful_of_sparing fun force => ?_
  cases came : makeAbove (Path.join root first.1) f with
  | mk r g =>
    cases r with
    | error e =>
      refine sparing_of_failed ⟨e, ?_⟩
      unfold place
      rw [unseen, Bool.false_and, if_neg Bool.false_ne_true, came]
    | ok u =>
      obtain ⟨R, stands, above⟩ := stands_of_made dir name rooted came
      exact sparing_of_begun unseen came stands above clear force

theorem spot_of_location (stands : Stands root R f) (tidy : Tidy xs) {x : String × String} (member : x ∈ xs)
    {l : List String} (led : f.location (Path.join root x.1) = .ok l) : l = spot R x := by
  obtain ⟨d, n, dir, name, same, here⟩ := tidy.spot_eq (R := R) member
  rw [same, location_below dir name stands, walk_below dir name stands] at led
  split at led
  · cases led
  · rw [here, ← Except.ok.inj led]
  · cases led

theorem spot_of_path (tidy : Tidy xs) {x y : String × String}
    (member : x ∈ xs) (member' : y ∈ xs) (same : Path.join root x.1 = Path.join root y.1) : spot R x = spot R y := by
  obtain ⟨d, n, dir, name, written, -⟩ := tidy.spot_eq (R := R) member
  obtain ⟨d', n', dir', name', written', -⟩ := tidy.spot_eq (R := R) member'
  have led := congrArg steps same
  have some_ (d n : String) : [d, n] ≠ [] := List.cons_ne_nil _ _
  rw [written, written', Path.steps_join (two_names dir name) (some_ d n),
    Path.steps_join (two_names dir' name') (some_ d' n')] at led
  rw [spot, spot, written, written', Path.steps_ofNames (two_names dir name) (some_ d n),
    Path.steps_ofNames (two_names dir' name') (some_ d' n'), List.append_cancel_left led]

/-- Where it is misled, a run loses a file or does not say truly what it made. -/
theorem Misled.not_careful (rooted : Rooted f) (misled : Misled root f) : ¬ Careful root f := by
  obtain ⟨dir, name⟩ := first_named
  intro careful
  cases misled with
  | @overwrites g l e unseen made led there file lost =>
    obtain ⟨R, stands, above⟩ := stands_of_made dir name rooted made
    have here : l = spot R first := spot_of_location stands tidy List.mem_cons_self led
    subst here
    have before := makeAbove_kept (Path.join root first.1) f
    rw [made] at before
    rcases begun unseen made stands above false with ⟨directory, -⟩ | ⟨-, run⟩
    · rw [before _ _ there] at directory
      exact file (Option.some.inj directory)
    rcases lost with other | ⟨paths, h, done⟩
    · have kept := careful.spares _ _ there
      rw [run.first] at kept
      exact other (Option.some.inj kept).symm
    · obtain ⟨-, told⟩ := careful.makes paths h done
      rw [done] at run
      have listed : Path.join root first.1 ∈ paths := by
        rw [run.made paths rfl]
        exact List.mem_cons_self
      rw [told] at listed
      have free := (List.mem_filter.mp listed).2
      have located := location_spot run.stands tidy List.mem_cons_self (run.first ▸ Option.some_ne_none _)
      rw [fresh_eq located, there] at free
      cases free
  | @overlooks g h paths x l unseen made done member led absent turned =>
    obtain ⟨R, stands, above⟩ := stands_of_made dir name rooted made
    have inside : x ∈ first :: others := files_eq ▸ member
    have here : l = spot R x := spot_of_location stands tidy inside led
    subst here
    rcases begun unseen made stands above false with ⟨-, e, failed⟩ | ⟨free, run⟩
    · cases failed.symm.trans done
    obtain ⟨all, told⟩ := careful.makes paths h done
    rw [done] at run
    have there : h.at? (spot R x) ≠ none := by
      rw [← Option.isSome_iff_ne_none, ← exists_spot run.stands tidy inside]
      exact all x member
    have listed : Path.join root x.1 ∈ paths := by
      rw [told]
      refine List.mem_filter.mpr ⟨List.mem_map.mpr ⟨x, member, rfl⟩, ?_⟩
      rw [fresh_eq (location_spot run.stands tidy inside there), absent]
      rfl
    rw [run.made paths rfl] at listed
    rcases List.mem_cons.mp listed with same | later
    · rw [spot_of_path tidy inside List.mem_cons_self same] at absent turned
      obtain ⟨e, turned⟩ := Option.ne_none_iff_exists'.mp turned
      have new := makeAbove_made (Path.join root first.1) f (spot R first) e
      rw [made] at new
      rcases new turned with old | rfl
      · cases absent.symm.trans old
      · exact free turned
    · obtain ⟨y, kept, same⟩ := List.mem_map.mp later
      obtain ⟨member', open_⟩ := List.mem_filter.mp kept
      rw [spot_of_path tidy inside (List.mem_cons_of_mem _ member') same.symm] at turned
      simp at open_
      exact turned open_

/-- Writing the sample is careful exactly if it is not misled. -/
theorem careful_iff (rooted : Rooted f) : Careful root f ↔ ¬ Misled root f :=
  ⟨fun careful misled => misled.not_careful rooted careful, careful_of_clear rooted⟩

/-- It is not misled below a directory that is there. -/
theorem not_misled_of_stands (stands : Stands root R f) : ¬ Misled root f := by
  obtain ⟨dir, name⟩ := first_named
  -- Wherever the root is found once directories have been made, it was found there before.
  have again {g : Files} (made : makeAbove (Path.join root first.1) f = (.ok (), g)) : Stands root R g := by
    obtain ⟨R', stands', -⟩ := stands_of_made dir name stands.rooted made
    have kept := makeAbove_kept (Path.join root first.1) f
    have home := makeAbove_home (Path.join root first.1) f
    rw [made] at kept home
    exact stands.grow (fun l => kept l _) stands'.rooted home
  intro misled
  cases misled with
  | @overwrites g l e unseen made led there =>
    rw [spot_of_location (again made) tidy List.mem_cons_self led] at there
    rw [exists_spot stands tidy List.mem_cons_self, there] at unseen
    cases unseen
  | @overlooks g h paths x l unseen made done member led absent turned =>
    rw [files_eq] at member
    obtain ⟨d', n', -, -, -, here⟩ := tidy.spot_eq (R := R) member
    rw [spot_of_location (again made) tidy member led, here] at absent turned
    rw [first, makeAbove_below dir name stands] at made
    have same : g = f ∨ g = f.put (R ++ ["fixtures"]) .directory := by
      split at made
      · exact .inr (Prod.mk.inj made).2.symm
      · exact .inl (Prod.mk.inj made).2.symm
      · cases made
    rcases same with rfl | rfl
    · exact turned absent
    · rw [Files.at?_put _ _ _ (by simp), if_neg (by simp)] at turned
      exact turned absent

/-- It is not misled by a path without `..`. -/
theorem not_misled_of_flat (rooted : Rooted f) (flat : ".." ∉ steps root) : ¬ Misled root f := by
  obtain ⟨dir, name⟩ := first_named
  -- Without `..` the root is where its names say, before and after.
  have place {g : Files} (made : makeAbove (Path.join root first.1) f = (.ok (), g)) :
      Stands root (Files.start f.home root ++ (steps root).filter (· ≠ ".")) g := by
    obtain ⟨R, stands, -⟩ := stands_of_made dir name rooted made
    have home := makeAbove_home (Path.join root first.1) f
    rw [made] at home
    rwa [Files.walk_flat flat stands.led, home] at stands
  intro misled
  cases misled with
  | @overwrites g l e unseen made led there file lost =>
    have stands := place made
    have directory : f.at? (Files.start f.home root ++ (steps root).filter (· ≠ ".")) = some .directory := by
      refine rooted.above (m := ["fixtures", "example.json"]) (List.cons_ne_nil _ _) ?_
      rw [← spot_first, ← spot_of_location stands tidy List.mem_cons_self led, there]
      exact Option.some_ne_none e
    have standing : Stands root _ f := ⟨Files.walk_down rooted flat directory, directory, rooted⟩
    exact not_misled_of_stands standing (.overwrites unseen made led there file lost)
  | @overlooks g h paths x l unseen made done member led absent turned =>
    have stands := place made
    rw [files_eq] at member
    obtain ⟨d', n', -, -, -, spot_⟩ := tidy.spot_eq (R := Files.start f.home root ++ (steps root).filter (· ≠ ".")) member
    obtain ⟨e, turned⟩ := Option.ne_none_iff_exists'.mp turned
    obtain ⟨q, started, lead, spread⟩ := makeAbove_spreads root dir name f
    change Spreads q f (makeAbove (Path.join root first.1) f).2 at spread
    rw [made] at spread
    rcases spread.made l e turned with old | ⟨-, near⟩
    · cases absent.symm.trans old
    · have short := (near (by rw [lead]; simp [flat])).length_le
      rw [spot_of_location stands tidy member led, spot_, started, lead, List.filter_append] at short
      simp at short

/-- Below a directory that is there, a run gets through unless something is in the way of a file that it has to write. -/
theorem write_fails_iff (stands : Stands root R f) (force : Bool) :
    (∃ e, (write root force f).1 = .error e) ↔ ∃ x ∈ files, Stuck R force f x :=
  (writeAll_ran force (files_eq ▸ tidy) stands).failed

/-- Below a directory that is there, the files that were not there before are those whose paths led nowhere. -/
theorem write_missing (stands : Stands root R f) {paths : List String} (done : write root false f = (.ok paths, g)) :
    paths = (files.map fun x => Path.join root x.1).filter fun p => !f.exists_ p := by
  have made := (writeAll_ran false (files_eq ▸ tidy) stands).made paths (congrArg Prod.fst done)
  rw [made, List.filter_map]
  congr 1
  refine List.filter_congr fun x member => ?_
  rw [Function.comp_apply, exists_spot stands (files_eq ▸ tidy) member]
  cases f.at? (spot R x) <;> rfl

/-- A project whose document is there already. -/
def started : Files := ⟨[(["app"], .directory), (["app", "fixtures"], .directory),
  (["app", "fixtures", "example.json"], .text "\x7b\x7d")], ["app"]⟩

theorem started_careful : Rooted started ∧ ".." ∉ steps "/app" ∧ Careful "." started ∧ Careful "/app" started := by
  have rooted : Rooted started := Files.rooted_of_entries (by decide +kernel)
  have here : ".." ∉ steps "." := by decide +kernel
  have flat : ".." ∉ steps "/app" := by decide +kernel
  exact ⟨rooted, flat, (careful_iff rooted).mpr (not_misled_of_flat rooted here),
    (careful_iff rooted).mpr (not_misled_of_flat rooted flat)⟩

theorem climbing_loses : ¬ Careful "new/.." started := by
  intro careful
  have kept := careful.spares ["app", "fixtures", "example.json"] (.text "\x7b\x7d") rfl
  revert kept
  decide +kernel

end PageSpec.Sample
