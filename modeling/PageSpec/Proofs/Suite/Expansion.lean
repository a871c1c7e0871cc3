import Mathlib.Data.List.Perm.Subperm
import Mathlib.Logic.Relation
import PageSpec.Proofs.Suite.Described
import PageSpec.Suite.Loading
/-!
The documents that a document names, expanded depth first. The expansion is described without a bound
and without a stack, and so are the references that cannot be followed; that no more documents can be
open at a time than there are files shows that the bound on the nesting is never reached.
-/
namespace PageSpec

/-! ## Files -/

namespace Files
variable {files : Files} {path : String} {here : List String}

theorem entry_eq (located : files.location path = .ok here) :
    files.entry path = match files.at? here with
      | some e => .ok e
      | none => .error .notFound := by
  unfold entry entryFrom
  rw [show files.locationFrom files.home path = .ok here from located]
  simp only [bind, Except.bind]
  cases files.at? here <;> rfl

/-- A file stands among the entries. -/
theorem location_mem (file : files.isFile path = true) (located : files.location path = .ok here) :
    here ∈ files.entries.map Prod.fst := by
  unfold isFile at file
  rw [entry_eq located] at file
  unfold at? at file
  by_cases root : here = []
  · simp [root] at file
  · rw [if_neg root] at file
    cases found : files.entries.lookup here with
    | none => simp [found] at file
    | some e =>
      obtain ⟨before, after, same, _⟩ := List.lookup_eq_some_iff.mp found
      rw [same]
      simp

theorem isFile_located (file : files.isFile path = true) : ∃ here, files.location path = .ok here := by
  cases located : files.location path with
  | ok here => exact ⟨here, rfl⟩
  | error e =>
    have failed : files.entry path = .error e := by
      unfold entry entryFrom
      rw [show files.locationFrom files.home path = .error e from located]
      rfl
    rw [isFile, failed] at file
    cases file

end Files

/-- Only a file has a document. -/
theorem Document.Describes.isFile {files : Files} {path : String} {doc : Document}
    (describes : Describes files path doc) : files.isFile path = true := by
  obtain ⟨_, ⟨text, _, read, _⟩, _⟩ := describes
  unfold Files.readText at read
  cases found : files.entry path with
  | error e => rw [found] at read; cases read
  | ok e =>
    rw [found] at read
    cases e with
    | text s => rw [Files.isFile, found]
    | directory => cases read
    | picture bs => cases read

theorem Document.not_undescribed_cycle {files : Files} {path q : String} :
    ¬ Undescribed files path (.beforeCycle q) := by
  intro undescribed
  cases undescribed

namespace Suite
open Relation

/-! ## References -/

/-- A document names a reference. -/
def Names (files : Files) (path reference : String) : Prop :=
  ∃ doc, Document.Describes files path doc ∧ reference ∈ doc.before

/-- From a document one gets back to it, possibly by another path. -/
def OnCycle (files : Files) (path : String) : Prop :=
  ∃ again here, TransGen (Names files) path again ∧ files.location path = .ok here ∧
    files.location again = .ok here

/-- Whatever a path leads to has a document, is on no cycle, and is none of the open documents. -/
def Clear (files : Files) (open_ : List (List String)) (path : String) : Prop :=
  ∀ reached, ReflTransGen (Names files) path reached →
    (∃ doc, Document.Describes files reached doc) ∧ ¬ OnCycle files reached ∧
      ∀ here ∈ open_, files.location reached ≠ .ok here

mutual
/-- The cases of a document in postorder: those of the documents it names, and then its own. -/
inductive Expands (files : Files) : String → List SuiteCase → Prop
  | document {path : String} {doc : Document} {chain : List SuiteCase}
    (describes : Document.Describes files path doc) (before : ExpandsAll files doc.before chain) :
    Expands files path (chain ++ doc.cases)
/-- The cases of some references, one reference after another. -/
inductive ExpandsAll (files : Files) : List String → List SuiteCase → Prop
  | nil : ExpandsAll files [] []
  | cons {path : String} {paths : List String} {cases rest : List SuiteCase}
    (first : Expands files path cases) (others : ExpandsAll files paths rest) :
    ExpandsAll files (path :: paths) (cases ++ rest)
end

/-- A reference that can be followed while some documents are open. -/
structure Opens (files : Files) (open_ : List (List String)) (path : String) (here : List String)
    (doc : Document) : Prop where
  located : files.location path = .ok here
  new : here ∉ open_
  describes : Document.Describes files path doc

/-- A reference that cannot be followed while some documents are open, and why. -/
inductive Offends (files : Files) (open_ : List (List String)) (path : String) : Failure → Prop
  | missing (none : files.isFile path = false) : Offends files open_ path (.beforeNotFound path)
  | cyclic {here : List String} (file : files.isFile path = true)
    (located : files.location path = .ok here) (again : here ∈ open_) :
    Offends files open_ path (.beforeCycle path)
  | undescribed {here : List String} {e : Failure} (file : files.isFile path = true)
    (located : files.location path = .ok here) (new : here ∉ open_)
    (undescribed : Document.Undescribed files path e) : Offends files open_ path e

/-- The first reference that cannot be followed, depth first: `Meets files open_ paths at_ path` says
that it is `path`, met while the documents `at_` are open. -/
inductive Meets (files : Files) : List (List String) → List String → List (List String) → String → Prop
  | here {open_ : List (List String)} {path : String} {paths : List String} {e : Failure}
    (offends : Offends files open_ path e) : Meets files open_ (path :: paths) open_ path
  | inside {open_ at_ : List (List String)} {path offender : String} {paths : List String}
    {here : List String} {doc : Document} (opens : Opens files open_ path here doc)
    (met : Meets files (here :: open_) doc.before at_ offender) :
    Meets files open_ (path :: paths) at_ offender
  | later {open_ at_ : List (List String)} {path offender : String} {paths : List String}
    (clear : Clear files open_ path) (met : Meets files open_ paths at_ offender) :
    Meets files open_ (path :: paths) at_ offender

/-! ## One reference -/

variable {files : Files} {open_ : List (List String)} {path : String}

theorem Opens.not_offends {here : List String} {doc : Document} {e : Failure}
    (opens : Opens files open_ path here doc) : ¬ Offends files open_ path e := by
  intro offends
  cases offends with
  | missing none => rw [opens.describes.isFile] at none; cases none
  | cyclic _ located again =>
    cases located.symm.trans opens.located
    exact opens.new again
  | undescribed _ _ _ undescribed => exact opens.describes.not_undescribed undescribed

/-- A reference either cannot be followed, or its own references are followed next. -/
theorem expand_cases (files : Files) (open_ : List (List String)) (path : String) :
    (∃ e, Offends files open_ path e ∧ ∀ n, expand files (n + 1) open_ path = .error e) ∨
      ∃ here doc, Opens files open_ path here doc ∧ ∀ n, expand files (n + 1) open_ path =
        (doc.before.mapM (expand files n (here :: open_))).map (·.flatten ++ doc.cases) := by
  simp only [expand]
  cases file : files.isFile path with
  | false => exact .inl ⟨_, .missing file, fun _ => rfl⟩
  | true =>
    obtain ⟨here, located⟩ := Files.isFile_located file
    rw [located]
    by_cases again : here ∈ open_
    · refine .inl ⟨_, .cyclic file located again, fun _ => ?_⟩
      simp [bind, Except.bind, Except.mapError, again, throw, throwThe, MonadExceptOf.throw]
    · have new : open_.contains here = false := by simpa using again
      cases read : Document.read files path with
      | error e =>
        refine .inl ⟨e, .undescribed file located again (Document.read_error_iff.mp read), fun _ => ?_⟩
        simp [bind, Except.bind, Except.mapError, again]
      | ok doc =>
        refine .inr ⟨here, doc, ⟨located, again, Document.read_ok_iff.mp read⟩, fun n => ?_⟩
        simp only [bind, Except.bind, Except.mapError, new, Bool.not_true, Bool.false_eq_true, ↓reduceIte,
          pure, Except.pure]
        cases doc.before.mapM (expand files n (here :: open_)) <;> rfl

/-! ## The bound -/

/-- The bound on the nesting leaves room for every file that is not open yet. -/
structure Room (files : Files) (open_ : List (List String)) (n : Nat) : Prop where
  distinct : open_.Nodup
  known : open_ ⊆ files.entries.map Prod.fst
  enough : files.entries.length + 2 ≤ open_.length + n

namespace Room
variable {n m : Nat}

theorem succ (room : Room files open_ n) : ∃ k, n = k + 1 := by
  have few := (room.distinct.subperm room.known).length_le
  rw [List.length_map] at few
  have enough := room.enough
  exact ⟨n - 1, by omega⟩

/-- One more open document takes one from the bound. -/
theorem opened {here : List String} {doc : Document} (room : Room files open_ (n + 1))
    (opens : Opens files open_ path here doc) : Room files (here :: open_) n := by
  have known := Files.location_mem opens.describes.isFile opens.located
  have enough := room.enough
  refine ⟨List.nodup_cons.mpr ⟨opens.new, room.distinct⟩, List.cons_subset.mpr ⟨known, room.known⟩, ?_⟩
  rw [List.length_cons]
  omega

end Room

private theorem mapM_congr {f g : String → Except Failure (List SuiteCase)} :
    ∀ {paths : List String}, (∀ p ∈ paths, f p = g p) → paths.mapM f = paths.mapM g
  | [], _ => rfl
  | p :: paths, same => by
    rw [List.mapM_cons, List.mapM_cons, same p List.mem_cons_self,
      mapM_congr fun q member => same q (List.mem_cons_of_mem p member)]

/-- A bound with room enough might as well be any other. -/
theorem expand_stable {n m : Nat} (room : Room files open_ n) (room' : Room files open_ m) :
    expand files n open_ path = expand files m open_ path := by
  induction n generalizing open_ path m with
  | zero => obtain ⟨k, none⟩ := room.succ; cases none
  | succ n ih =>
    obtain ⟨m, rfl⟩ := room'.succ
    rcases expand_cases files open_ path with ⟨e, _, failed⟩ | ⟨here, doc, opens, followed⟩
    · rw [failed, failed]
    · rw [followed, followed, mapM_congr fun p _ => ih (room.opened opens) (room'.opened opens)]

/-! ## What is followed -/

private theorem followed_each {n : Nat} : ∀ {paths : List String} {chains : List (List SuiteCase)},
    paths.mapM (expand files n open_) = .ok chains →
      (∀ p ∈ paths, ∃ cases, expand files n open_ p = .ok cases) ∧
        ((∀ p cases, expand files n open_ p = .ok cases → Expands files p cases) →
          ExpandsAll files paths chains.flatten)
  | [], chains, done => by
    cases done
    exact ⟨by simp, fun _ => .nil⟩
  | p :: paths, chains, done => by
    rw [List.mapM_cons] at done
    cases first : expand files n open_ p with
    | error e => rw [first] at done; cases done
    | ok cases =>
      rw [first] at done
      cases others : paths.mapM (expand files n open_) with
      | error e => rw [others] at done; cases done
      | ok rest =>
        rw [others] at done
        cases done
        obtain ⟨each, all⟩ := followed_each others
        refine ⟨?_, fun expands => .cons (expands p cases first) (all expands)⟩
        intro q member
        rcases List.mem_cons.mp member with rfl | later
        · exact ⟨cases, first⟩
        · exact each q later

/-- What is followed is expanded in postorder. -/
theorem expand_expands {n : Nat} {cases : List SuiteCase} (done : expand files n open_ path = .ok cases) :
    Expands files path cases := by
  induction n generalizing open_ path cases with
  | zero => cases done
  | succ n ih =>
    rcases expand_cases files open_ path with ⟨e, _, failed⟩ | ⟨here, doc, opens, followed⟩
    · rw [failed] at done; cases done
    · rw [followed] at done
      cases chained : doc.before.mapM (expand files n (here :: open_)) with
      | error e => rw [chained] at done; cases done
      | ok chains =>
        rw [chained] at done
        cases done
        exact .document opens.describes ((followed_each chained).2 fun p cases done => ih done)

/-- A reference that some bound is enough to follow. -/
def Followed (files : Files) (open_ : List (List String)) (path : String) : Prop :=
  ∃ n cases, expand files n open_ path = .ok cases

theorem followed_opens (followed : Followed files open_ path) :
    ∃ here doc, Opens files open_ path here doc ∧ ∀ p ∈ doc.before, Followed files (here :: open_) p := by
  obtain ⟨n, cases, done⟩ := followed
  cases n with
  | zero => cases done
  | succ n =>
    rcases expand_cases files open_ path with ⟨e, _, failed⟩ | ⟨here, doc, opens, followed⟩
    · rw [failed] at done; cases done
    · refine ⟨here, doc, opens, fun p member => ?_⟩
      rw [followed] at done
      cases chained : doc.before.mapM (expand files n (here :: open_)) with
      | error e => rw [chained] at done; cases done
      | ok chains =>
        obtain ⟨cases, each⟩ := (followed_each chained).1 p member
        exact ⟨n, cases, each⟩

theorem Opens.followed {here : List String} {doc : Document} {n : Nat} {chains : List (List SuiteCase)}
    (opens : Opens files open_ path here doc)
    (chained : doc.before.mapM (expand files n (here :: open_)) = .ok chains) :
    Followed files open_ path := by
  rcases expand_cases files open_ path with ⟨e, offends, _⟩ | ⟨here', doc', opens', followed⟩
  · exact absurd offends opens.not_offends
  · cases opens.located.symm.trans opens'.located
    obtain rfl := opens.describes.unique opens'.describes
    refine ⟨n + 1, chains.flatten ++ doc.cases, ?_⟩
    rw [followed, chained]
    rfl

/-- What a followed reference leads to is followed too, with more documents open. -/
theorem followed_reaches {reached : String} (followed : Followed files open_ path)
    (leads : ReflTransGen (Names files) path reached) :
    ∃ more, open_ ⊆ more ∧ Followed files more reached := by
  induction leads with
  | refl => exact ⟨open_, List.Subset.refl _, followed⟩
  | tail _ named ih =>
    obtain ⟨more, kept, there⟩ := ih
    obtain ⟨doc, describes, member⟩ := named
    obtain ⟨here, doc', opens, each⟩ := followed_opens there
    obtain rfl := describes.unique opens.describes
    exact ⟨here :: more, fun l inside => List.mem_cons_of_mem here (kept inside), each _ member⟩

theorem followed_acyclic (followed : Followed files open_ path) : ¬ OnCycle files path := by
  rintro ⟨again, here, leads, located, back⟩
  obtain ⟨next, ⟨doc, describes, member⟩, rest⟩ := TransGen.head'_iff.mp leads
  obtain ⟨here', doc', opens, each⟩ := followed_opens followed
  obtain rfl := describes.unique opens.describes
  cases located.symm.trans opens.located
  obtain ⟨more, kept, there⟩ := followed_reaches (each next member) rest
  obtain ⟨here', _, opens', _⟩ := followed_opens there
  cases back.symm.trans opens'.located
  exact opens'.new (kept List.mem_cons_self)

theorem followed_clear (followed : Followed files open_ path) : Clear files open_ path := by
  intro reached leads
  obtain ⟨more, kept, there⟩ := followed_reaches followed leads
  obtain ⟨here, doc, opens, _⟩ := followed_opens there
  refine ⟨⟨doc, opens.describes⟩, followed_acyclic there, fun here' member located => ?_⟩
  cases located.symm.trans opens.located
  exact opens.new (kept member)

/-! ## What cannot be followed -/

theorem Meets.append {at_ : List (List String)} {offender : String} (paths : List String)
    (met : Meets files open_ [path] at_ offender) : Meets files open_ (path :: paths) at_ offender := by
  cases met with
  | here offends => exact .here offends
  | inside opens met => exact .inside opens met
  | later _ met => cases met

private theorem blocked_each {n : Nat} (blocked : ∀ p e, expand files n open_ p = .error e →
      ∃ at_ offender, Meets files open_ [p] at_ offender ∧ Offends files at_ offender e) :
    ∀ {paths : List String} {e : Failure}, paths.mapM (expand files n open_) = .error e →
      ∃ at_ offender, Meets files open_ paths at_ offender ∧ Offends files at_ offender e
  | [], _, failed => nomatch failed
  | p :: paths, e, failed => by
    rw [List.mapM_cons] at failed
    cases first : expand files n open_ p with
    | error e' =>
      rw [first] at failed
      cases failed
      obtain ⟨at_, offender, met, offends⟩ := blocked p e first
      exact ⟨at_, offender, met.append paths, offends⟩
    | ok cases =>
      rw [first] at failed
      cases others : paths.mapM (expand files n open_) with
      | ok chains => rw [others] at failed; cases failed
      | error e' =>
        rw [others] at failed
        cases failed
        obtain ⟨at_, offender, met, offends⟩ := blocked_each blocked others
        exact ⟨at_, offender, .later (followed_clear ⟨n, cases, first⟩) met, offends⟩

/-- What fails, fails with the first reference that cannot be followed. -/
theorem expand_meets {n : Nat} {e : Failure} (room : Room files open_ n)
    (failed : expand files n open_ path = .error e) :
    ∃ at_ offender, Meets files open_ [path] at_ offender ∧ Offends files at_ offender e := by
  induction n generalizing open_ path e with
  | zero => obtain ⟨k, none⟩ := room.succ; cases none
  | succ n ih =>
    rcases expand_cases files open_ path with ⟨e', offends, failed'⟩ | ⟨here, doc, opens, followed⟩
    · rw [failed'] at failed
      cases failed
      exact ⟨open_, path, .here offends, offends⟩
    · rw [followed] at failed
      cases chained : doc.before.mapM (expand files n (here :: open_)) with
      | ok chains => rw [chained] at failed; cases failed
      | error e' =>
        rw [chained] at failed
        cases failed
        obtain ⟨at_, offender, met, offends⟩ :=
          blocked_each (fun p e' failed => ih (room.opened opens) failed) chained
        exact ⟨at_, offender, .inside opens met, offends⟩

theorem Clear.not_offends {e : Failure} (clear : Clear files open_ path) : ¬ Offends files open_ path e := by
  obtain ⟨⟨doc, describes⟩, _, apart⟩ := clear path .refl
  intro offends
  cases offends with
  | missing none => rw [describes.isFile] at none; cases none
  | cyclic _ located again => exact apart _ again located
  | undescribed _ _ _ undescribed => exact describes.not_undescribed undescribed

/-- The references of a document stay clear while it is open itself. -/
theorem Clear.inside {here : List String} {doc : Document} {reference : String}
    (clear : Clear files open_ path) (describes : Document.Describes files path doc)
    (located : files.location path = .ok here) (member : reference ∈ doc.before) :
    Clear files (here :: open_) reference := by
  intro reached leads
  have named : Names files path reference := ⟨doc, describes, member⟩
  obtain ⟨described, acyclic, apart⟩ := clear reached (.head named leads)
  refine ⟨described, acyclic, fun l opened back => ?_⟩
  rcases List.mem_cons.mp opened with rfl | before
  · exact (clear path .refl).2.1 ⟨reached, _, TransGen.head'_iff.mpr ⟨_, named, leads⟩, located, back⟩
  · exact apart l before back

/-- A reference that cannot be followed is nothing that clear references lead to. -/
theorem Meets.not_clear {paths : List String} {at_ : List (List String)} {offender : String}
    (met : Meets files open_ paths at_ offender) : ¬ ∀ p ∈ paths, Clear files open_ p := by
  induction met with
  | here offends => exact fun clear => (clear _ List.mem_cons_self).not_offends offends
  | inside opens _ ih =>
    refine fun clear => ih fun p member => ?_
    exact (clear _ List.mem_cons_self).inside opens.describes opens.located member
  | later _ _ ih => exact fun clear => ih fun p member => clear p (List.mem_cons_of_mem _ member)

/-! ## Uniqueness -/

mutual
theorem Expands.unique : ∀ {path : String} {cases cases' : List SuiteCase},
    Expands files path cases → Expands files path cases' → cases = cases'
  | _, _, _, .document describes before, .document describes' before' => by
    obtain rfl := describes.unique describes'
    rw [before.unique before']
theorem ExpandsAll.unique : ∀ {paths : List String} {cases cases' : List SuiteCase},
    ExpandsAll files paths cases → ExpandsAll files paths cases' → cases = cases'
  | _, _, _, .nil, .nil => rfl
  | _, _, _, .cons first others, .cons first' others' => by
    rw [first.unique first', others.unique others']
end

/-- There is but one first reference that cannot be followed. -/
theorem Meets.unique {paths : List String} {at_ at' : List (List String)} {offender other : String}
    (met : Meets files open_ paths at_ offender) (met' : Meets files open_ paths at' other) :
    at' = at_ ∧ other = offender := by
  induction met with
  | here offends =>
    cases met' with
    | here _ => exact ⟨rfl, rfl⟩
    | inside opens _ => exact absurd offends opens.not_offends
    | later clear _ => exact absurd offends clear.not_offends
  | inside opens met ih =>
    cases met' with
    | here offends => exact absurd offends opens.not_offends
    | inside opens' met' =>
      cases opens.located.symm.trans opens'.located
      obtain rfl := opens.describes.unique opens'.describes
      exact ih met'
    | later clear _ =>
      exact absurd (fun p member => clear.inside opens.describes opens.located member) met.not_clear
  | later clear met ih =>
    cases met' with
    | here offends => exact absurd offends clear.not_offends
    | inside opens met' =>
      exact absurd (fun p member => clear.inside opens.describes opens.located member) met'.not_clear
    | later _ met' => exact ih met'

/-! ## Whole documents -/

/-- A reference leads to a document that is being expanded. -/
def Returns (files : Files) (open_ : List (List String)) (path : String) : Prop :=
  files.isFile path = true ∧ ∃ here ∈ open_, files.location path = .ok here

theorem Offends.cycle_iff {e : Failure} (offends : Offends files open_ path e) :
    (∃ q, e = .beforeCycle q) ↔ Returns files open_ path := by
  cases offends with
  | missing none =>
    refine iff_of_false (by rintro ⟨_, same⟩; cases same) fun ⟨file, _⟩ => ?_
    rw [none] at file
    cases file
  | cyclic file located again => exact iff_of_true ⟨path, rfl⟩ ⟨file, _, again, located⟩
  | undescribed _ located new undescribed =>
    refine iff_of_false ?_ fun returns => ?_
    · rintro ⟨q, rfl⟩
      exact Document.not_undescribed_cycle undescribed
    · obtain ⟨_, _, again, back⟩ := returns
      cases located.symm.trans back
      exact new again

theorem room_root {here : List String} (file : files.isFile path = true)
    (located : files.location path = .ok here) {n : Nat} (enough : files.entries.length + 1 ≤ n) :
    Room files [here] n := by
  refine ⟨by simp, ?_, ?_⟩
  · exact List.cons_subset.mpr ⟨Files.location_mem file located, List.nil_subset _⟩
  · rw [List.length_singleton]
    omega

theorem chainOf_eq {here : List String} (located : files.location path = .ok here) (doc : Document) :
    chainOf files path doc =
      (doc.before.mapM (expand files (files.entries.length + 1) [here])).map List.flatten := by
  unfold chainOf
  rw [located]
  simp only [bind, Except.bind, Except.mapError]
  cases doc.before.mapM (expand files (files.entries.length + 1) [here]) <;> rfl

theorem load_eq {doc : Document} {here : List String} (describes : Document.Describes files path doc)
    (located : files.location path = .ok here) (n : Nat) : (load files path n).1 =
      (doc.before.mapM (expand files (files.entries.length + 1) [here])).map fun chains =>
        ⟨path, doc.title.getD (untitled n), doc.url, chains.flatten, doc.cases⟩ := by
  unfold load
  rw [describes.read]
  dsimp only
  rw [chainOf_eq located]
  cases doc.title <;>
    cases doc.before.mapM (expand files (files.entries.length + 1) [here]) <;> rfl

/-- Loading a document follows its references depth first and comes to an end. Where all that they
lead to has a document and nothing is on a cycle, the cases before are the postorder expansion, and
otherwise the failure is that of the first reference that cannot be followed. It is a cycle just when
this reference leads back to a document that is being expanded, such as the one that is loaded. -/
theorem load_expands (files : Files) (path : String) (n : Nat) :
    ((∃ doc, Document.Describes files path doc) ∨ ∃ e, Document.Undescribed files path e) ∧
      (∀ e, Document.Undescribed files path e → (load files path n).1 = .error e) ∧
      ∀ doc, Document.Describes files path doc → ∃ here, files.location path = .ok here ∧
        (Clear files [] path → ∃ before, ExpandsAll files doc.before before ∧
          (∀ other, ExpandsAll files doc.before other → other = before) ∧
          (load files path n).1 =
            .ok ⟨path, doc.title.getD (untitled n), doc.url, before, doc.cases⟩) ∧
        (¬ Clear files [] path → ∃ at_ offender e, Meets files [here] doc.before at_ offender ∧
          (∀ at' other, Meets files [here] doc.before at' other → at' = at_ ∧ other = offender) ∧
          Offends files at_ offender e ∧ (load files path n).1 = .error e ∧
          ((∃ q, e = .beforeCycle q) ↔ Returns files at_ offender)) ∧
        ∀ bound, files.entries.length + 1 ≤ bound → doc.before.mapM (expand files bound [here]) =
          doc.before.mapM (expand files (files.entries.length + 1) [here]) := by
  refine ⟨Document.described_or_not files path, fun e undescribed => ?_, fun doc describes => ?_⟩
  · unfold load
    rw [undescribed.read]
  · obtain ⟨here, located⟩ := Files.isFile_located describes.isFile
    have room := room_root describes.isFile located (Nat.le_refl (files.entries.length + 1))
    refine ⟨here, located, fun clear => ?_, fun unclear => ?_, fun bound enough => ?_⟩
    · cases chained : doc.before.mapM (expand files (files.entries.length + 1) [here]) with
      | error e =>
        obtain ⟨at_, offender, met, _⟩ := blocked_each (fun p e failed => expand_meets room failed) chained
        exact absurd (fun p member => clear.inside describes located member) met.not_clear
      | ok chains =>
        have expanded := (followed_each chained).2 fun p cases done => expand_expands done
        refine ⟨chains.flatten, expanded, fun other again => again.unique expanded, ?_⟩
        rw [load_eq describes located, chained]
        rfl
    · cases chained : doc.before.mapM (expand files (files.entries.length + 1) [here]) with
      | error e =>
        obtain ⟨at_, offender, met, offends⟩ :=
          blocked_each (fun p e failed => expand_meets room failed) chained
        refine ⟨at_, offender, e, met, fun at' other met' => met.unique met', offends, ?_,
          offends.cycle_iff⟩
        rw [load_eq describes located, chained]
        rfl
      | ok chains =>
        have opens : Opens files [] path here doc := ⟨located, List.not_mem_nil, describes⟩
        exact absurd (followed_clear (opens.followed chained)) unclear
    · exact mapM_congr fun p _ => expand_stable (room_root describes.isFile located enough) room

/-! ## An example -/

/-- Two documents of which the second names the first, and a third that names both: one by a path that leads up, the
other from the root, with a blank text between. And two documents that name each other. -/
def hooks : Files := ⟨[
  (["app"], .directory), (["app", "hooks"], .directory), (["app", "tests"], .directory),
  (["app", "hooks", "base.json"], .text "\x7b\"describe\":\x7b\"seed\":\x7b\"actions\":[]\x7d\x7d\x7d"),
  (["app", "hooks", "login.json"],
    .text "\x7b\"describe\":\x7b\"before\":\"base.json\",\"login\":\x7b\"actions\":[]\x7d\x7d\x7d"),
  (["app", "tests", "main.json"],
    .text ("\x7b\"describe\":\x7b\"before\":[\"../hooks/login.json\",\" \",\"/app/hooks/base.json\"]," ++
      "\"main\":\x7b\"actions\":[]\x7d\x7d\x7d")),
  (["app", "a.json"], .text "\x7b\"describe\":\x7b\"before\":\"b.json\"\x7d\x7d"),
  (["app", "b.json"], .text "\x7b\"describe\":\x7b\"before\":[\" a.json \"]\x7d\x7d")], ["app"]⟩

/-- A document of the example, by what it names, its title and its URL. -/
private theorem hooks_described (path : String) (before : List String)
    (seen : (Document.read hooks path).toOption.map (fun doc => (doc.before, doc.title, doc.url)) =
      some (before, none, none)) :
    ∃ doc, Document.Describes hooks path doc ∧ doc.before = before ∧ doc.title = none ∧ doc.url = none := by
  cases read : Document.read hooks path with
  | error e => rw [read] at seen; cases seen
  | ok doc =>
    rw [read] at seen
    exact ⟨doc, Document.read_ok_iff.mp read, by simpa [Except.toOption] using seen⟩

/-- The chain comes depth first, with the cases of the shared document twice; the other two make a cycle. -/
theorem hooks_expanded :
    (∃ doc before, Document.Describes hooks "tests/main.json" doc ∧
      doc.before = ["tests/../hooks/login.json", "/app/hooks/base.json"] ∧
      Clear hooks [] "tests/main.json" ∧ ExpandsAll hooks doc.before before ∧
      before.map (·.key) = ["seed", "login", "seed"] ∧
      (load hooks "tests/main.json" 1).1 = .ok ⟨"tests/main.json", "All Tests 01", none, before, doc.cases⟩) ∧
    ∃ doc at_, Document.Describes hooks "a.json" doc ∧ doc.before = ["b.json"] ∧
      Meets hooks [["app", "a.json"]] doc.before at_ "a.json" ∧ Returns hooks at_ "a.json" ∧
      (load hooks "a.json" 1).1 = .error (.beforeCycle "a.json") := by
  constructor
  · obtain ⟨doc, describes, names, title, url⟩ := hooks_described "tests/main.json"
      ["tests/../hooks/login.json", "/app/hooks/base.json"] (by decide +kernel)
    have keys : (load hooks "tests/main.json" 1).1.toOption.map (·.before.map (·.key)) =
        some ["seed", "login", "seed"] := by decide +kernel
    obtain ⟨here, -, expands, fails, -⟩ := (load_expands hooks "tests/main.json" 1).2.2 doc describes
    have clear : Clear hooks [] "tests/main.json" := by
      by_contra unclear
      obtain ⟨_, _, e, -, -, -, failed, -⟩ := fails unclear
      rw [failed] at keys
      cases keys
    obtain ⟨before, expanded, -, loaded⟩ := expands clear
    rw [loaded] at keys
    refine ⟨doc, before, describes, names, clear, expanded, Option.some.inj keys, ?_⟩
    rw [loaded, title, url]
    rfl
  · obtain ⟨doc, describes, names, -, -⟩ := hooks_described "a.json" ["b.json"] (by decide +kernel)
    have seen : (match (load hooks "a.json" 1).1 with
        | .error (.beforeCycle q) => some q
        | _ => none) = some "a.json" := by decide +kernel
    have cycle : (load hooks "a.json" 1).1 = .error (.beforeCycle "a.json") := by
      split at seen
      · rename_i q failed
        rw [failed, Option.some.inj seen]
      · cases seen
    obtain ⟨here, located, expands, fails, -⟩ := (load_expands hooks "a.json" 1).2.2 doc describes
    have home : hooks.location "a.json" = .ok ["app", "a.json"] := by decide +kernel
    cases home.symm.trans located
    have unclear : ¬ Clear hooks [] "a.json" := by
      intro clear
      obtain ⟨_, -, -, loaded⟩ := expands clear
      cases cycle.symm.trans loaded
    obtain ⟨at_, offender, e, met, -, offends, failed, returns⟩ := fails unclear
    cases cycle.symm.trans failed
    have back := returns.mp ⟨_, rfl⟩
    cases offends with
    | cyclic => exact ⟨doc, at_, describes, names, met, back, cycle⟩
    | undescribed _ _ _ undescribed => exact absurd undescribed Document.not_undescribed_cycle

end Suite
end PageSpec
