import PageSpec.Proofs.Named
import PageSpec.Suite.Document
/-!
What files say of their documents, told without the reader. The texts of the `before` field lead to other documents,
and every field with a name of its own is a case. A file that has no document has a first thing that is wrong with it.
-/
namespace PageSpec.Document

/-! ## References -/

/-- The texts of a `before` field: there are none where it is left out or null, one may stand by itself, and a list
holds nothing else. -/
inductive Lists : Option Json → List String → Prop
  | absent : Lists none []
  | null : Lists (some .null) []
  | text (s : String) : Lists (some (.str s)) [s]
  | items (ss : List String) : Lists (some (.arr (ss.map .str))) ss

/-- A `before` field that has no texts, and what is wrong with it. -/
inductive Unlisted : Option Json → DocumentFault → Prop
  | item {xs : List Json} {x : Json} (member : x ∈ xs) (other : ∀ s, x ≠ .str s) :
    Unlisted (some (.arr xs)) .beforeEntry
  | shape {v : Json} (solid : v ≠ .null) (text : ∀ s, v ≠ .str s) (items : ∀ xs, v ≠ .arr xs) :
    Unlisted (some v) .beforeShape

/-- Where a text leads from a directory: from the root if it starts with a slash, and else on from the directory. -/
inductive Leads (directory : String) : String → String → Prop
  | root {s : String} (rooted : s.toList.head? = some '/') : Leads directory s s
  | here {s : String} (empty : directory = "") : Leads directory s s
  | slashed {s : String} (onward : s.toList.head? ≠ some '/') (ends : directory.toList.getLast? = some '/') :
    Leads directory s (directory ++ s)
  | below {s : String} (onward : s.toList.head? ≠ some '/') (solid : directory ≠ "")
    (bare : directory.toList.getLast? ≠ some '/') : Leads directory s (directory ++ "/" ++ s)

/-- The references of some texts, one for each text that is not blank. -/
inductive Refers (directory : String) : List String → List String → Prop
  | nil : Refers directory [] []
  | blank {s : String} {ss paths : List String} (nothing : Text.trim s = "") (others : Refers directory ss paths) :
    Refers directory (s :: ss) paths
  | path {s p : String} {ss paths : List String} (solid : Text.trim s ≠ "") (leads : Leads directory (Text.trim s) p)
    (others : Refers directory ss paths) : Refers directory (s :: ss) (p :: paths)

section
variable {v : Option Json} {ss : List String} {e : DocumentFault} {directory s p : String}

/-- The text of an item. -/
private def itemText (x : Json) : Except DocumentFault String :=
  match x with
  | .str s => .ok s
  | _ => .error .beforeEntry

private theorem itemText_ok_iff {x : Json} : itemText x = .ok s ↔ x = .str s := by
  cases x <;> simp [itemText]

private theorem itemText_error_iff {x : Json} : itemText x = .error e ↔ e = .beforeEntry ∧ ∀ s, x ≠ .str s := by
  cases x <;> simp [itemText, eq_comm]

private theorem itemTexts_ok_iff {xs : List Json} : xs.mapM itemText = .ok ss ↔ xs = ss.map .str := by
  rw [mapM_eq_ok_iff, ← List.forall₂_eq_eq_eq, List.forall₂_map_right_iff]
  simp only [itemText_ok_iff]

theorem references_ok_iff : references v = .ok ss ↔ Lists v ss := by
  constructor
  · intro listed
    rcases v with _ | v
    · cases listed
      exact .absent
    · cases v with
      | null => cases listed; exact .null
      | str s => cases listed; exact .text s
      | arr xs =>
        obtain rfl := itemTexts_ok_iff.mp listed
        exact .items ss
      | bool | int | float | obj => cases listed
  · intro lists
    cases lists with
    | absent | null | text => rfl
    | items => exact itemTexts_ok_iff.mpr rfl

theorem references_error_iff : references v = .error e ↔ Unlisted v e := by
  constructor
  · intro failed
    rcases v with _ | v
    · cases failed
    · cases v with
      | null | str => cases failed
      | arr xs =>
        obtain ⟨early, x, late, rfl, -, lost⟩ := mapM_eq_error_iff.mp (show xs.mapM itemText = .error e from failed)
        obtain ⟨rfl, other⟩ := itemText_error_iff.mp lost
        exact .item (by simp) other
      | bool | int | float | obj => cases failed; exact .shape (by simp) (by simp) (by simp)
  · intro unlisted
    cases unlisted with
    | shape solid text items =>
      rename_i v
      cases v with
      | null => exact absurd rfl solid
      | str s => exact absurd rfl (text s)
      | arr xs => exact absurd rfl (items xs)
      | bool | int | float | obj => rfl
    | @item xs x member other =>
      change xs.mapM itemText = _
      cases listed : xs.mapM itemText with
      | error e =>
        obtain ⟨_, _, _, -, -, lost⟩ := mapM_eq_error_iff.mp listed
        rw [(itemText_error_iff.mp lost).1]
      | ok ss =>
        obtain rfl := itemTexts_ok_iff.mp listed
        obtain ⟨s, -, rfl⟩ := List.mem_map.mp member
        exact absurd rfl (other s)

theorem join_iff : Path.join directory s = p ↔ Leads directory s p := by
  unfold Path.join Path.isAbsolute
  constructor
  · rintro rfl
    by_cases rooted : s.toList.head? = some '/'
    · simpa [rooted] using Leads.root rooted
    · by_cases empty : directory = ""
      · simpa [empty] using Leads.here empty
      · by_cases ends : directory.toList.getLast? = some '/'
        · simpa [rooted, empty, ends] using Leads.slashed rooted ends
        · simpa [rooted, empty, ends] using Leads.below rooted empty ends
  · intro leads
    cases leads with
    | root rooted => simp [rooted]
    | here empty => simp [empty]
    | slashed onward ends =>
      have solid : directory ≠ "" := by
        rintro rfl
        simp at ends
      simp [onward, solid, ends]
    | below onward solid bare => simp [onward, solid, bare]

theorem refers_iff {paths : List String} :
    ((ss.map Text.trim).filter (· ≠ "")).map (Path.join directory) = paths ↔ Refers directory ss paths := by
  constructor
  · rintro rfl
    induction ss with
    | nil => exact .nil
    | cons s ss ih =>
      by_cases nothing : Text.trim s = ""
      · simpa [nothing] using Refers.blank nothing ih
      · simpa [nothing] using Refers.path nothing (join_iff.mp rfl) ih
  · intro refers
    induction refers with
    | nil => rfl
    | blank nothing others ih => simpa [nothing] using ih
    | path solid leads others ih =>
      rw [List.map_cons, List.filter_cons_of_pos (by simpa using solid), List.map_cons, ih, join_iff.mpr leads]

end

/-! ## Cases -/

/-- The directory of a document. -/
def directoryOf (path : String) : String := (Path.parent? path).getD ""

/-- The case that a field of a document writes. -/
structure Writes (path : String) (url : Option String) (field : String × Json) (c : SuiteCase) : Prop where
  object : ∃ fs, field.2 = .obj fs
  scenario : Scenario.ofJson field.2 = .ok c.scenario
  key : c.key = field.1
  /-- Its own title, unless that is blank. -/
  title : (∃ t, c.scenario.title = some t ∧ Text.trim t ≠ "" ∧ c.title = Text.trim t) ∨
    (∀ t, c.scenario.title = some t → Text.trim t = "") ∧ c.title = s!"Tests in feature {field.1}"
  directory : c.directory = directoryOf path
  suiteUrl : c.suiteUrl = url
  source : c.source = path

/-- A field that writes no case, and what is wrong with it. -/
inductive Unwritten (field : String × Json) : DocumentFault → Prop
  | shape (other : ∀ fs, field.2 ≠ .obj fs) : Unwritten field (.caseShape field.1)
  | scenario {fs : Fields} {m : Mistake} (object : field.2 = .obj fs) (misread : Scenario.ofJson field.2 = .error m) :
    Unwritten field (.scenario field.1 m)

section
variable {path key : String} {url : Option String} {v : Json} {c : SuiteCase} {e : DocumentFault}

private theorem caseTitle_iff {written : Option String} {title : String} :
    ((written.map Text.trim).filter (· ≠ "")).getD s!"Tests in feature {key}" = title ↔
      (∃ t, written = some t ∧ Text.trim t ≠ "" ∧ title = Text.trim t) ∨
        (∀ t, written = some t → Text.trim t = "") ∧ title = s!"Tests in feature {key}" := by
  rw [eq_comm]
  cases written with
  | none => simp
  | some t =>
    by_cases blank : Text.trim t = ""
    · simp [Option.filter, blank]
    · simp [Option.filter, blank]

theorem caseOf_ok_iff : caseOf path (directoryOf path) url key v = .ok c ↔ Writes path url (key, v) c := by
  constructor
  · intro read
    cases v with
    | obj fs =>
      unfold caseOf at read
      dsimp only at read
      cases decoded : Scenario.ofJson (.obj fs) with
      | error m => rw [decoded] at read; cases read
      | ok s =>
        rw [decoded] at read
        cases read
        exact ⟨⟨fs, rfl⟩, decoded, rfl, caseTitle_iff.mp rfl, rfl, rfl, rfl⟩
    | null | bool | int | float | str | arr => cases read
  · rintro ⟨⟨fs, object⟩, decoded, rfl, title, directory, rfl, rfl⟩
    dsimp only at object decoded
    subst object
    unfold caseOf
    dsimp only
    rw [decoded]
    dsimp only
    rw [caseTitle_iff.mpr title, ← directory]

theorem caseOf_error_iff {directory : String} :
    caseOf path directory url key v = .error e ↔ Unwritten (key, v) e := by
  constructor
  · intro failed
    cases v with
    | obj fs =>
      unfold caseOf at failed
      dsimp only at failed
      cases decoded : Scenario.ofJson (.obj fs) with
      | ok s => rw [decoded] at failed; cases failed
      | error m =>
        rw [decoded] at failed
        cases failed
        exact .scenario rfl decoded
    | null | bool | int | float | str | arr => cases failed; exact .shape (by simp)
  · intro unwritten
    cases unwritten with
    | scenario object misread =>
      dsimp only at object misread
      subst object
      unfold caseOf
      dsimp only
      rw [misread]
    | shape other =>
      cases v with
      | obj fs => exact absurd rfl (other fs)
      | null | bool | int | float | str | arr => rfl

end

/-! ## Documents -/

/-- A file holds the block of a document: an object, under `describe` in a JSON object. -/
def Holds (files : Files) (path : String) (block : Fields) : Prop :=
  ∃ text root, files.readText path = .ok text ∧ Json.parse text = .ok root ∧
    root.field? "describe" = some (.obj block)

/-- The fields of a block that are cases, in order. -/
def caseFields (block : Fields) : Fields := block.filter (·.1 ∉ ["text", "url", "before"])

/-- What a block says of its document. -/
structure Tells (path : String) (block : Fields) (doc : Document) : Prop where
  before : ∃ ss, Lists (Fields.get? block "before") ss ∧ Refers (directoryOf path) ss doc.before
  cases : List.Forall₂ (Writes path doc.url) (caseFields block) doc.cases
  title : doc.title = titleOf (Fields.get? block "text")
  url : doc.url = (Fields.get? block "url").bind Json.str?

/-- A file has a document. -/
def Describes (files : Files) (path : String) (doc : Document) : Prop :=
  ∃ block, Holds files path block ∧ Tells path block doc

/-- A file has no document, and the first thing that is wrong with it. -/
inductive Undescribed (files : Files) (path : String) : Failure → Prop
  | unread {e : IoFault} (unread : files.readText path = .error e) : Undescribed files path (.io e)
  | unparsed {text : String} {e : Json.SyntaxError} (read : files.readText path = .ok text)
    (unparsed : Json.parse text = .error e) : Undescribed files path (.invalidDocument path (.notJson e))
  | noBlock {text : String} {root : Json} (read : files.readText path = .ok text)
    (parsed : Json.parse text = .ok root) (other : ∀ block, root.field? "describe" ≠ some (.obj block)) :
    Undescribed files path (.invalidDocument path .noDescription)
  | before {block : Fields} {e : DocumentFault} (holds : Holds files path block)
    (unlisted : Unlisted (Fields.get? block "before") e) : Undescribed files path (.invalidDocument path e)
  | case {block early late : Fields} {field : String × Json} {ss : List String} {e : DocumentFault}
    (holds : Holds files path block) (lists : Lists (Fields.get? block "before") ss)
    (order : caseFields block = early ++ field :: late)
    (written : ∀ f ∈ early, ∃ c, Writes path ((Fields.get? block "url").bind Json.str?) f c)
    (unwritten : Unwritten field e) : Undescribed files path (.invalidDocument path e)

section
variable {files : Files} {path : String} {block : Fields} {doc : Document} {e : Failure}

/-- What is read of a file that holds a block. -/
theorem read_block (holds : Holds files path block) : read files path = ((do
    let written ← references (Fields.get? block "before")
    let url := (Fields.get? block "url").bind Json.str?
    let cases ← (caseFields block).mapM fun f => caseOf path (directoryOf path) url f.1 f.2
    return ⟨titleOf (Fields.get? block "text"), url,
      ((written.map Text.trim).filter (· ≠ "")).map (Path.join (directoryOf path)), cases⟩ :
        Except DocumentFault Document)).mapError (.invalidDocument path) := by
  obtain ⟨text, root, read, parsed, named⟩ := holds
  unfold Document.read ofText
  rw [read]
  dsimp only
  rw [parsed]
  simp only [bind, Except.bind, pure, Except.pure]
  rw [named]
  have fields : (block.filter fun f => !reserved.contains f.1) = caseFields block := by
    simp [caseFields, reserved]
  dsimp only
  rw [fields]
  rfl

theorem tells_iff {ss : List String} (lists : Lists (Fields.get? block "before") ss) :
    Tells path block doc ↔ List.Forall₂ (Writes path ((Fields.get? block "url").bind Json.str?)) (caseFields block)
      doc.cases ∧ doc = ⟨titleOf (Fields.get? block "text"), (Fields.get? block "url").bind Json.str?,
        ((ss.map Text.trim).filter (· ≠ "")).map (Path.join (directoryOf path)), doc.cases⟩ := by
  obtain ⟨title, url, before, cases⟩ := doc
  constructor
  · rintro ⟨⟨ss', lists', refers⟩, written, rfl, rfl⟩
    obtain rfl : ss = ss' := Except.ok.inj ((references_ok_iff.mpr lists).symm.trans (references_ok_iff.mpr lists'))
    exact ⟨written, by rw [refers_iff.mpr refers]⟩
  · rintro ⟨written, same⟩
    cases same
    exact ⟨⟨ss, lists, refers_iff.mp rfl⟩, written, rfl, rfl⟩

theorem Describes.read (describes : Describes files path doc) : Document.read files path = .ok doc := by
  obtain ⟨block, holds, told⟩ := describes
  obtain ⟨ss, lists, -⟩ := told.before
  obtain ⟨written, same⟩ := (tells_iff lists).mp told
  have cases : (caseFields block).mapM (fun f => caseOf path (directoryOf path)
      ((Fields.get? block "url").bind Json.str?) f.1 f.2) = .ok doc.cases :=
    mapM_eq_ok_iff.mpr (written.imp fun _ _ => caseOf_ok_iff.mpr)
  rw [read_block holds, references_ok_iff.mpr lists]
  simp only [bind, Except.bind, pure, Except.pure, cases]
  rw [← same]
  rfl

theorem Undescribed.read (undescribed : Undescribed files path e) : Document.read files path = .error e := by
  cases undescribed with
  | unread unread =>
    unfold Document.read
    rw [unread]
  | unparsed read unparsed =>
    unfold Document.read ofText
    rw [read]
    dsimp only
    rw [unparsed]
    rfl
  | @noBlock text root read parsed other =>
    unfold Document.read ofText
    rw [read]
    dsimp only
    rw [parsed]
    simp only [bind, Except.bind, pure, Except.pure]
    cases named : root.field? "describe" with
    | none => rfl
    | some v => cases v with
      | obj block => exact absurd named (other block)
      | null | bool | int | float | str | arr => rfl
  | before holds unlisted =>
    rw [read_block holds, references_error_iff.mpr unlisted]
    rfl
  | @case block early late field ss e holds lists order written unwritten =>
    have lost : (caseFields block).mapM (fun f => caseOf path (directoryOf path)
        ((Fields.get? block "url").bind Json.str?) f.1 f.2) = .error e := by
      refine mapM_eq_error_iff.mpr ⟨early, field, late, order, fun f member => ?_, caseOf_error_iff.mpr unwritten⟩
      obtain ⟨c, writes⟩ := written f member
      exact ⟨c, caseOf_ok_iff.mpr writes⟩
    rw [read_block holds, references_ok_iff.mpr lists]
    simp only [bind, Except.bind, lost]
    rfl

/-- A file has a document, or something is wrong with it. -/
theorem described_or_not (files : Files) (path : String) :
    (∃ doc, Describes files path doc) ∨ ∃ e, Undescribed files path e := by
  cases read : files.readText path with
  | error e => exact .inr ⟨_, .unread read⟩
  | ok text =>
    cases parsed : Json.parse text with
    | error e => exact .inr ⟨_, .unparsed read parsed⟩
    | ok root =>
      by_cases named : ∃ block, root.field? "describe" = some (.obj block)
      · obtain ⟨block, named⟩ := named
        have holds : Holds files path block := ⟨text, root, read, parsed, named⟩
        cases listed : references (Fields.get? block "before") with
        | error e => exact .inr ⟨_, .before holds (references_error_iff.mp listed)⟩
        | ok ss =>
          have lists := references_ok_iff.mp listed
          let url := (Fields.get? block "url").bind Json.str?
          cases made : (caseFields block).mapM fun f => caseOf path (directoryOf path) url f.1 f.2 with
          | error e =>
            obtain ⟨early, field, late, order, written, lost⟩ := mapM_eq_error_iff.mp made
            refine .inr ⟨_, .case holds lists order (fun f member => ?_) (caseOf_error_iff.mp lost)⟩
            obtain ⟨c, done⟩ := written f member
            exact ⟨c, caseOf_ok_iff.mp done⟩
          | ok cases =>
            have written := (mapM_eq_ok_iff.mp made).imp fun _ _ => caseOf_ok_iff.mp
            exact .inl ⟨⟨_, _, _, cases⟩, block, holds, (tells_iff lists).mpr ⟨written, rfl⟩⟩
      · exact .inr ⟨_, .noBlock read parsed fun block same => named ⟨block, same⟩⟩

/-- What is read of a file is the document that it has. -/
theorem read_ok_iff : Document.read files path = .ok doc ↔ Describes files path doc := by
  refine ⟨fun done => ?_, Describes.read⟩
  rcases described_or_not files path with ⟨doc', describes⟩ | ⟨e, undescribed⟩
  · cases done.symm.trans describes.read
    exact describes
  · cases done.symm.trans undescribed.read

/-- Reading a file fails with the first thing that is wrong with it. -/
theorem read_error_iff : Document.read files path = .error e ↔ Undescribed files path e := by
  refine ⟨fun failed => ?_, Undescribed.read⟩
  rcases described_or_not files path with ⟨doc, describes⟩ | ⟨e', undescribed⟩
  · cases failed.symm.trans describes.read
  · cases failed.symm.trans undescribed.read
    exact undescribed

theorem Describes.unique {doc' : Document} (describes : Describes files path doc)
    (describes' : Describes files path doc') : doc = doc' :=
  Except.ok.inj (describes.read.symm.trans describes'.read)

theorem Describes.not_undescribed (describes : Describes files path doc) : ¬ Undescribed files path e := by
  intro undescribed
  cases describes.read.symm.trans undescribed.read

end

end PageSpec.Document
