import Mathlib.Data.Prod.Lex
import Mathlib.Data.String.Basic
import PageSpec.Proofs.Files.Paths
import PageSpec.Proofs.Named
import PageSpec.Proofs.Suite.Expansion
/-!
The documents below a directory. Whatever order the files are found in, the documents among them are listed in the
same one: by file name, and then by path. The comparison tells any two paths apart, so nothing is left to the order
in which the directories are read.
-/
namespace PageSpec

/-! ## Files in any order -/

namespace Files
variable {f f' : Files} {here l : List String} {e : Entry}

/-- Every entry stands once, at a location other than the root, and its names are fit for entries. -/
structure Sound (f : Files) : Prop where
  once : (f.entries.map Prod.fst).Nodup
  apart : ∀ x ∈ f.entries, x.1 ≠ []
  names : ∀ x ∈ f.entries, ∀ n ∈ x.1, Path.IsName n

/-- What is at a location does not depend on the order of the entries. -/
theorem at?_perm (once : (f.entries.map Prod.fst).Nodup) (shuffled : f.entries.Perm f'.entries)
    (l : List String) : f.at? l = f'.at? l := by
  have once' : (f'.entries.map Prod.fst).Nodup := (shuffled.map _).nodup_iff.mp once
  unfold at?
  congr 1
  ext e
  rw [lookup_eq_some_iff once, lookup_eq_some_iff once', shuffled.mem_iff]

theorem walk_congr (same : ∀ l, f.at? l = f'.at? l) : ∀ (names here : List String),
    f.walk here names = f'.walk here names
  | [], _ => rfl
  | n :: names, here => by
    rw [walk, walk, same here]
    simp only [walk_congr same names]

theorem location_congr (home : f.home = f'.home) (same : ∀ l, f.at? l = f'.at? l) (p : String) :
    f.location p = f'.location p := by
  unfold location locationFrom
  simp only [home, walk_congr same]

theorem isDirectory_congr (home : f.home = f'.home) (same : ∀ l, f.at? l = f'.at? l) (p : String) :
    f.isDirectory p = f'.isDirectory p := by
  unfold isDirectory entry entryFrom
  rw [show f.locationFrom f.home p = f'.locationFrom f'.home p from location_congr home same p]
  simp only [same]

theorem isDirectory_iff {p : String} :
    f.isDirectory p = true ↔ ∃ here, f.location p = .ok here ∧ f.at? here = some .directory := by
  unfold isDirectory
  cases located : f.location p with
  | error e =>
    have failed : f.entry p = .error e := by
      unfold entry entryFrom
      rw [show f.locationFrom f.home p = .error e from located]
      rfl
    simp [failed]
  | ok here =>
    rw [entry_eq located]
    cases there : f.at? here with
    | none => simp [there]
    | some e => cases e <;> simp [there]

theorem location_solid {p : String} (located : f.location p = .ok here) : p ≠ "" := by
  rintro rfl
  cases located

/-- What leads on to a file is found below a location, and nothing else. -/
theorem mem_filesBelow (sound : f.Sound) (directory : f.at? here = some .directory) :
    l ∈ f.filesBelow here ↔ l ≠ [] ∧ ∃ e, f.at? (here ++ l) = some e ∧ e ≠ .directory := by
  have member : l ∈ f.filesBelow here ↔ ∃ e, (here ++ l, e) ∈ f.entries ∧ e ≠ .directory := by
    unfold filesBelow
    simp only [List.mem_filterMap, Prod.exists]
    constructor
    · rintro ⟨whole, e, there, goes⟩
      by_cases below : (e ≠ .directory && here.isPrefixOf whole) = true
      · rw [if_pos below, Option.some.injEq] at goes
        simp only [Bool.and_eq_true, decide_eq_true_eq, List.isPrefixOf_iff_prefix] at below
        obtain ⟨file, rest, rfl⟩ := below
        rw [List.drop_left] at goes
        exact ⟨e, goes ▸ there, file⟩
      · rw [if_neg below] at goes
        cases goes
    · rintro ⟨e, there, file⟩
      exact ⟨here ++ l, e, there, by simp [file]⟩
  rw [member]
  constructor
  · rintro ⟨e, there, file⟩
    have found : f.at? (here ++ l) = some e := by
      rw [at?, if_neg (sound.apart _ there)]
      exact (lookup_eq_some_iff sound.once).mpr there
    refine ⟨?_, e, found, file⟩
    rintro rfl
    rw [List.append_nil, directory, Option.some.injEq] at found
    exact file found.symm
  · rintro ⟨some_, e, found, file⟩
    rw [at?, if_neg (by simp [some_])] at found
    exact ⟨e, (lookup_eq_some_iff sound.once).mp found, file⟩

theorem filesBelow_perm (shuffled : f.entries.Perm f'.entries) (here : List String) :
    (f.filesBelow here).Perm (f'.filesBelow here) := shuffled.filterMap _

theorem filesBelow_nodup (once : (f.entries.map Prod.fst).Nodup) (here : List String) : (f.filesBelow here).Nodup := by
  let below : List String × Entry → Bool := fun x => x.2 ≠ .directory && here.isPrefixOf x.1
  have parts : f.filesBelow here = ((f.entries.filter below).map Prod.fst).map (List.drop here.length) := by
    unfold filesBelow
    rw [List.map_map, ← List.filterMap_eq_map, List.filterMap_filter]
    rfl
  rw [parts]
  refine List.Nodup.map_on ?_ (once.sublist (List.filter_sublist.map _))
  have started : ∀ l ∈ (f.entries.filter below).map Prod.fst, ∃ rest, l = here ++ rest := by
    intro l member
    obtain ⟨x, inside, rfl⟩ := List.mem_map.mp member
    obtain ⟨-, kept⟩ := List.mem_filter.mp inside
    have lead : here <+: x.1 := List.isPrefixOf_iff_prefix.mp (Bool.and_eq_true_iff.mp kept).2
    exact ⟨_, (List.prefix_iff_eq_append.mp lead).symm⟩
  intro l member l' member' same
  obtain ⟨rest, rfl⟩ := started l member
  obtain ⟨rest', rfl⟩ := started l' member'
  rw [List.drop_left, List.drop_left] at same
  rw [same]

end Files

namespace Suite

/-! ## The order of documents -/

/-- A document comes before another one: its file name does, or they share it and its path comes before. -/
def Precedes (p q : String) : Prop :=
  ∃ name name', Path.fileName? p = some name ∧ Path.fileName? q = some name' ∧
    (name < name' ∨ name = name' ∧ Path.names p < Path.names q)

/-- What documents are ordered by. -/
def rank (p : String) : String ×ₗ List String := toLex ((Path.fileName? p).getD "", Path.names p)

theorem namesUpTo_iff : ∀ {as bs : List String}, namesUpTo as bs = true ↔ as ≤ bs
  | [], bs => iff_of_true rfl (not_lt.mp (List.not_lt_nil bs))
  | a :: as, [] => iff_of_false Bool.false_ne_true (not_le.mpr (List.nil_lt_cons a as))
  | a :: as, b :: bs => by
    have lex : a :: as ≤ b :: bs ↔ a < b ∨ a = b ∧ as ≤ bs := by
      rw [← not_lt, List.cons_lt_cons_iff, ← not_lt]
      rcases lt_trichotomy a b with below | rfl | above
      · simp [below, below.not_gt, below.ne']
      · simp
      · simp [above, above.not_gt, above.ne']
    rw [lex, namesUpTo, ← namesUpTo_iff]
    simp

theorem runsBefore_iff {p q : String} : runsBefore p q = true ↔ rank p ≤ rank q := by
  rw [rank, rank, Prod.Lex.toLex_le_toLex, runsBefore, ← namesUpTo_iff]
  simp

theorem precedes_of_rank {p q name name' : String} (first : Path.fileName? p = some name)
    (second : Path.fileName? q = some name') (below : rank p < rank q) : Precedes p q := by
  rw [rank, rank, first, second, Prod.Lex.toLex_lt_toLex] at below
  exact ⟨name, name', first, second, below⟩

/-! ## Listing -/

/-- The documents among some paths are listed: those with the extension `json` in any letter case, each of them once,
by file name and then by path. -/
structure Listing (found ps : List String) : Prop where
  exactly : ∀ p, p ∈ ps ↔ p ∈ found ∧ ∃ name, Path.fileName? p = some name ∧ Path.Ends "json" name
  once : ps.Nodup
  ordered : ps.Pairwise Precedes

/-- No two of the paths lead to the same place. -/
def Distinct (found : List String) : Prop := (found.map Path.names).Nodup

section
variable {found found' : List String}

theorem documentsAmong_sorted (found : List String) :
    (documentsAmong found).Pairwise fun p q => rank p ≤ rank q := by
  have transitive (p q r : String) (first : runsBefore p q = true) (second : runsBefore q r = true) :
      runsBefore p r = true := runsBefore_iff.mpr ((runsBefore_iff.mp first).trans (runsBefore_iff.mp second))
  have total (p q : String) : (runsBefore p q || runsBefore q p) = true := by
    rw [Bool.or_eq_true, runsBefore_iff, runsBefore_iff]
    exact le_total _ _
  have sorted := List.pairwise_mergeSort transitive total (found.filter (Path.hasExtension "json"))
  exact sorted.imp runsBefore_iff.mp

theorem mem_documentsAmong {p : String} :
    p ∈ documentsAmong found ↔ p ∈ found ∧ ∃ name, Path.fileName? p = some name ∧ Path.Ends "json" name := by
  rw [documentsAmong, (List.mergeSort_perm _ _).mem_iff, List.mem_filter, Path.hasExtension_iff (by decide)]

theorem rank_inj (distinct : Distinct found) {p q : String} (first : p ∈ found) (second : q ∈ found)
    (same : rank p = rank q) : p = q :=
  List.inj_on_of_nodup_map distinct first second (congrArg (fun r => (ofLex r).2) same)

theorem documentsAmong_listing (distinct : Distinct found) : Listing found (documentsAmong found) := by
  have once : (documentsAmong found).Nodup :=
    (List.mergeSort_perm _ _).nodup_iff.mpr ((List.Nodup.of_map _ distinct).filter _)
  refine ⟨fun p => mem_documentsAmong, once, ?_⟩
  refine ((documentsAmong_sorted found).and once).imp_of_mem fun {p q} first second both => ?_
  obtain ⟨inside, name, named, -⟩ := mem_documentsAmong.mp first
  obtain ⟨inside', name', named', -⟩ := mem_documentsAmong.mp second
  exact precedes_of_rank named named' (both.1.lt_of_ne fun same => both.2 (rank_inj distinct inside inside' same))

/-- In whatever order the paths are found, the same list is made of them. -/
theorem documentsAmong_perm (distinct : Distinct found) (shuffled : found.Perm found') :
    documentsAmong found = documentsAmong found' := by
  have same : (documentsAmong found).Perm (documentsAmong found') :=
    (List.mergeSort_perm _ _).trans ((shuffled.filter _).trans (List.mergeSort_perm _ _).symm)
  refine same.eq_of_pairwise (fun p q first second up down => ?_) (documentsAmong_sorted found)
    (documentsAmong_sorted found')
  have inside := (mem_documentsAmong.mp first).1
  have inside' := (mem_documentsAmong.mp (same.mem_iff.mpr second)).1
  exact rank_inj distinct inside inside' (le_antisymm up down)

end

/-! ## Discovery -/

/-- What is found below a directory: the files whose names end in `json`, each of them once, in order. -/
inductive Discovered (files : Files) (dir : String) : Except Failure (List String) → Prop
  | missing (none_ : files.isDirectory dir = false) : Discovered files dir (.error (.missingDirectory dir))
  | listed {here ps : List String} (located : files.location dir = .ok here)
    (directory : files.at? here = some .directory)
    (exactly : ∀ p, p ∈ ps ↔ ∃ l n e, files.at? (here ++ (l ++ [n])) = some e ∧ e ≠ .directory ∧
      Path.Ends "json" n ∧ p = Path.join dir (Path.ofNames (l ++ [n])))
    (once : ps.Nodup) (ordered : ps.Pairwise Precedes) : Discovered files dir (.ok ps)

section
variable {files files' : Files} {dir : String} {here : List String}

/-- The paths of the files below a directory, in the order of the entries. -/
def pathsBelow (files : Files) (dir : String) (here : List String) : List String :=
  (files.filesBelow here).map fun l => Path.join dir (Path.ofNames l)

theorem discover_listed (located : files.location dir = .ok here) (directory : files.isDirectory dir = true) :
    discover files dir = .ok (documentsAmong (pathsBelow files dir here)) := by
  unfold discover
  rw [located, directory]
  rfl

theorem discover_missing (none_ : files.isDirectory dir = false) :
    discover files dir = .error (.missingDirectory dir) := by
  unfold discover
  rw [none_]
  split
  · cases ‹false = true›
  · rfl

/-- What leads on to a file is made of names. -/
theorem names_below (sound : files.Sound) {l : List String} (some_ : l ≠ []) {e : Entry}
    (there : files.at? (here ++ l) = some e) : ∀ n ∈ l, Path.IsName n := by
  intro n inside
  rw [Files.at?, if_neg (by simp [some_]), lookup_eq_some_iff sound.once] at there
  exact sound.names _ there n (List.mem_append_right here inside)

theorem pathsBelow_distinct (sound : files.Sound) (located : files.location dir = .ok here)
    (directory : files.at? here = some .directory) : Distinct (pathsBelow files dir here) := by
  have solid := Files.location_solid located
  have names : ∀ l ∈ files.filesBelow here, Path.names (Path.join dir (Path.ofNames l)) = Path.names dir ++ l := by
    intro l member
    obtain ⟨some_, e, there, -⟩ := (Files.mem_filesBelow sound directory).mp member
    exact Path.names_join solid (names_below sound some_ there) some_
  unfold Distinct pathsBelow
  rw [List.map_map]
  refine (Files.filesBelow_nodup sound.once here).map_on fun l member l' member' same => ?_
  rw [Function.comp_apply, Function.comp_apply, names l member, names l' member'] at same
  exact List.append_cancel_left same

theorem mem_documentsAmong_pathsBelow (sound : files.Sound) (located : files.location dir = .ok here)
    (directory : files.at? here = some .directory) {p : String} :
    p ∈ documentsAmong (pathsBelow files dir here) ↔ ∃ l n e, files.at? (here ++ (l ++ [n])) = some e ∧
      e ≠ .directory ∧ Path.Ends "json" n ∧ p = Path.join dir (Path.ofNames (l ++ [n])) := by
  have solid := Files.location_solid located
  have named {l : List String} {n : String} {e : Entry} (there : files.at? (here ++ (l ++ [n])) = some e) :
      Path.fileName? (Path.join dir (Path.ofNames (l ++ [n]))) = some n :=
    Path.fileName?_join solid (names_below sound (by simp) there)
  rw [mem_documentsAmong, pathsBelow, List.mem_map]
  constructor
  · rintro ⟨⟨whole, member, rfl⟩, name, called, ends⟩
    obtain ⟨some_, e, there, file⟩ := (Files.mem_filesBelow sound directory).mp member
    obtain ⟨l, n, rfl⟩ := (List.eq_nil_or_concat' whole).resolve_left some_
    obtain rfl : n = name := Option.some.inj ((named there).symm.trans called)
    exact ⟨l, n, e, there, file, ends, rfl⟩
  · rintro ⟨l, n, e, there, file, ends, rfl⟩
    have member := (Files.mem_filesBelow sound directory).mpr ⟨by simp, e, there, file⟩
    exact ⟨⟨l ++ [n], member, rfl⟩, n, named there, ends⟩

theorem discover_discovered (sound : files.Sound) (dir : String) : Discovered files dir (discover files dir) := by
  cases directory : files.isDirectory dir with
  | false =>
    rw [discover_missing directory]
    exact .missing directory
  | true =>
    obtain ⟨here, located, there⟩ := Files.isDirectory_iff.mp directory
    have listing := documentsAmong_listing (pathsBelow_distinct sound located there)
    rw [discover_listed located directory]
    exact .listed located there (fun p => mem_documentsAmong_pathsBelow sound located there) listing.once
      listing.ordered

theorem discover_perm (sound : files.Sound) (shuffled : files.entries.Perm files'.entries)
    (home : files.home = files'.home) (dir : String) : discover files dir = discover files' dir := by
  have same := Files.at?_perm sound.once shuffled
  have directory' := Files.isDirectory_congr home same dir
  cases directory : files.isDirectory dir with
  | false => rw [discover_missing directory, discover_missing (directory'.symm.trans directory)]
  | true =>
    obtain ⟨here, located, there⟩ := Files.isDirectory_iff.mp directory
    have located' : files'.location dir = .ok here := (Files.location_congr home same dir).symm.trans located
    rw [discover_listed located directory, discover_listed located' (directory'.symm.trans directory)]
    exact congrArg Except.ok (documentsAmong_perm (pathsBelow_distinct sound located there)
      ((Files.filesBelow_perm shuffled here).map _))

end

/-- Which documents are listed, and in which order, does not depend on the order in which files are found: neither for
paths from wherever they come nor for the files below a directory. -/
theorem discover_any_order :
    (∀ found found' : List String, Distinct found → found.Perm found' →
      documentsAmong found = documentsAmong found' ∧ Listing found (documentsAmong found)) ∧
    ∀ (files : Files) found, files.Sound → files.entries.Perm found → ∀ dir,
      discover files dir = discover { files with entries := found } dir ∧
        Discovered files dir (discover files dir) := by
  refine ⟨fun _ _ distinct shuffled => ⟨documentsAmong_perm distinct shuffled, documentsAmong_listing distinct⟩,
    fun files found sound shuffled dir => ⟨?_, discover_discovered sound dir⟩⟩
  let files' : Files := { files with entries := found }
  have shuffled' : files.entries.Perm files'.entries := shuffled
  exact discover_perm sound shuffled' rfl dir

/-- Two documents of one name, a third one and a note, and the same found the other way round: as paths from anywhere,
and as files below a directory, by its path from the working directory and from the root. -/
theorem discover_reversed :
    let found := ["specs/b.json", "specs/nested/b.json", "specs/nested/a.JSON", "specs/notes.txt"]
    let files : Files := ⟨[(["app"], .directory), (["app", "specs"], .directory), (["app", "specs", "b.json"], .text "[]"),
      (["app", "specs", "nested"], .directory), (["app", "specs", "nested", "b.json"], .text "[]"),
      (["app", "specs", "nested", "a.JSON"], .text "[]"), (["app", "specs", "notes.txt"], .text "")], ["app"]⟩
    (documentsAmong found = documentsAmong found.reverse ∧ Listing found (documentsAmong found)) ∧
      ∀ dir ∈ ["specs", "/app/specs"], files.isDirectory dir = true ∧
        discover files dir = discover { files with entries := files.entries.reverse } dir ∧
        Discovered files dir (discover files dir) := by
  intro found files
  have distinct : Distinct found := by
    unfold Distinct
    decide +kernel
  have sound : files.Sound := ⟨by decide +kernel, by decide +kernel, by
    intro x member n inside
    refine ⟨?_, ?_, ?_, ?_⟩ <;> revert n <;> revert x <;> decide +kernel⟩
  refine ⟨discover_any_order.1 found found.reverse distinct (List.reverse_perm found).symm, fun dir member => ⟨?_, ?_⟩⟩
  · simp only [List.mem_cons, List.not_mem_nil, or_false] at member
    rcases member with rfl | rfl <;> decide +kernel
  · exact discover_any_order.2 files files.entries.reverse sound (List.reverse_perm _).symm dir

end Suite
end PageSpec
