import Mathlib.Data.List.Induction
import Mathlib.Data.String.Basic
import PageSpec.Functions.Bag
import PageSpec.Proofs.Named
/-!
The entries of a bag file. Of several entries under one name the last one counts. A file is loaded exactly if all of
its entries can be read, and each one that counts gives either a value or a command; null gives neither.
-/
namespace PageSpec.FunctionBag

/-! ## Entries that count -/

section
variable {α : Type} {es : List (String × α)} {e : String × α} {name : String} {a : α}

/-- The last one that stands under a name. -/
def last? (es : List (String × α)) (name : String) : Option α := es.reverse.lookup name

theorem last?_concat (es : List (String × α)) (e : String × α) (name : String) :
    last? (es ++ [e]) name = if name = e.1 then some e.2 else last? es name := by
  rw [last?, List.reverse_append, List.reverse_singleton, List.singleton_append, List.lookup_cons]
  by_cases same : name = e.1
  · rw [if_pos same, beq_iff_eq.mpr same]
  · rw [if_neg same, beq_eq_false_iff_ne.mpr same]
    rfl

theorem last?_eq_none_iff : last? es name = none ↔ name ∉ es.map Prod.fst := by
  rw [last?, lookup_eq_none_iff, List.map_reverse, List.mem_reverse]

theorem last?_eq_some_iff (once : (es.map Prod.fst).Nodup) : last? es name = some a ↔ (name, a) ∈ es := by
  rw [last?, lookup_eq_some_iff (by rwa [List.map_reverse, List.nodup_reverse]), List.mem_reverse]

theorem lastOnes_concat (es : List (String × α)) (e : String × α) :
    lastOnes (es ++ [e]) = (lastOnes es).filter (·.1 ≠ e.1) ++ [e] := by
  rw [lastOnes, List.foldl_append]
  rfl

theorem mem_lastOnes : (name, a) ∈ lastOnes es ↔ last? es name = some a := by
  induction es using List.reverseRecOn with
  | nil => exact iff_of_false List.not_mem_nil nofun
  | append_singleton es e ih =>
    rw [lastOnes_concat, last?_concat, List.mem_append, List.mem_filter, ih, List.mem_singleton]
    by_cases same : name = e.1
    · simp [same, Prod.ext_iff, eq_comm]
    · simp [same, Prod.ext_iff]

theorem lastOnes_once (es : List (String × α)) : ((lastOnes es).map Prod.fst).Nodup := by
  induction es using List.reverseRecOn with
  | nil => exact List.nodup_nil
  | append_singleton es e ih =>
    rw [lastOnes_concat, List.map_append]
    refine List.nodup_append.mpr ⟨ih.sublist (List.filter_sublist.map _), List.nodup_singleton _, ?_⟩
    rintro _ member _ last rfl
    obtain ⟨x, kept, rfl⟩ := List.mem_map.mp member
    have other := (List.mem_filter.mp kept).2
    simp [List.mem_singleton.mp last] at other

theorem sortedByName_once (es : List (String × α)) : ((sortedByName es).map Prod.fst).Nodup :=
  ((List.mergeSort_perm _ _).map _).nodup_iff.mpr (lastOnes_once es)

theorem mem_sortedByName : (name, a) ∈ sortedByName es ↔ last? es name = some a := by
  rw [sortedByName, (List.mergeSort_perm _ _).mem_iff, mem_lastOnes]

theorem lookup_sortedByName (es : List (String × α)) (name : String) :
    (sortedByName es).lookup name = last? es name := by
  ext a
  rw [lookup_eq_some_iff (sortedByName_once es), mem_sortedByName]

theorem mem_names_sortedByName : name ∈ (sortedByName es).map Prod.fst ↔ name ∈ es.map Prod.fst := by
  rw [← not_iff_not, ← lookup_eq_none_iff, lookup_sortedByName, last?_eq_none_iff]

/-- The names come in order, each of them once. -/
theorem sortedByName_ordered (es : List (String × α)) : ((sortedByName es).map Prod.fst).Pairwise (· < ·) := by
  have transitive (x y z : String × α) (first : decide (x.1 ≤ y.1) = true) (second : decide (y.1 ≤ z.1) = true) :
      decide (x.1 ≤ z.1) = true :=
    decide_eq_true ((of_decide_eq_true first).trans (of_decide_eq_true second))
  have total (x y : String × α) : (decide (x.1 ≤ y.1) || decide (y.1 ≤ x.1)) = true := by
    simpa using le_total x.1 y.1
  have sorted := List.pairwise_mergeSort transitive total (lastOnes es)
  have upTo : ((sortedByName es).map Prod.fst).Pairwise (· ≤ ·) :=
    List.pairwise_map.mpr (sorted.imp of_decide_eq_true)
  exact (upTo.and (sortedByName_once es)).imp fun both => lt_of_le_of_ne both.1 both.2

end

/-! ## What an entry gives -/

namespace Entry

/-- A field is written, and not as null. -/
def Gives (e : Entry) (name : String) : Prop := ∃ v, (name, v) ∈ e ∧ v.isNull = false

end Entry

namespace Draft

/-- Whether there is a value or a command. -/
def gives (d : Draft) (name : String) : Bool :=
  match name with
  | "value" => d.value.isSome
  | "command" => d.command.isSome
  | _ => false

section
variable {d d' : Draft} {before : List String} {e : Entry} {name : String} {v : Datum}

theorem put_gives (put : d.put name v = .ok d') (field : String) (source : field = "value" ∨ field = "command") :
    d'.gives field = if name = field then !v.isNull else d.gives field := by
  unfold Draft.put at put
  split at put
  · cases put
    rcases source with rfl | rfl
    · cases v.isNull <;> rfl
    · rfl
  · split at put
    · rename_i null
      cases put
      rcases source with rfl | rfl
      · rfl
      · simp [gives, null]
    · rename_i given
      cases text : v.text with
      | error m =>
        rw [text] at put
        cases put
      | ok program =>
        rw [text] at put
        cases put
        rcases source with rfl | rfl
        · rfl
        · simp [gives, given]
  · cases texts : v.texts with
    | error m =>
      rw [texts] at put
      cases put
    | ok args =>
      rw [texts] at put
      cases put
      rcases source with rfl | rfl <;> rfl
  · cases put

theorem putAll_cons (put : putAll before d ((name, v) :: e) = .ok d') :
    name ∉ before ∧ ∃ d₁, d.put name v = .ok d₁ ∧ putAll (name :: before) d₁ e = .ok d' := by
  rw [putAll] at put
  by_cases again : before.contains name
  · rw [if_pos again] at put
    cases put
  · rw [if_neg again] at put
    cases first : d.put name v with
    | error m =>
      rw [first] at put
      cases put
    | ok d₁ =>
      rw [first] at put
      exact ⟨by simpa using again, d₁, rfl, put⟩

/-- No field is read that was there before, and none twice. -/
theorem putAll_names (put : putAll before d e = .ok d') :
    (e.map Prod.fst).Nodup ∧ ∀ x ∈ e, x.1 ∉ before := by
  induction e generalizing before d with
  | nil => exact ⟨List.nodup_nil, nofun⟩
  | cons x e ih =>
    obtain ⟨new, d₁, -, rest⟩ := putAll_cons put
    obtain ⟨once, others⟩ := ih rest
    refine ⟨List.nodup_cons.mpr ⟨fun member => ?_, once⟩, List.forall_mem_cons.mpr ⟨new, fun y member => ?_⟩⟩
    · obtain ⟨y, inside, same⟩ := List.mem_map.mp member
      exact others y inside (by rw [same]; exact List.mem_cons_self)
    · exact fun old => others y member (List.mem_cons_of_mem _ old)

theorem putAll_gives (put : putAll before d e = .ok d') (field : String)
    (source : field = "value" ∨ field = "command") :
    d'.gives field = true ↔ Entry.Gives e field ∨ d.gives field = true ∧ field ∉ e.map Prod.fst := by
  induction e generalizing before d with
  | nil =>
    cases put
    simp [Entry.Gives]
  | cons x e ih =>
    obtain ⟨name, v⟩ := x
    obtain ⟨-, d₁, first, rest⟩ := putAll_cons put
    obtain ⟨-, others⟩ := putAll_names rest
    rw [ih rest, put_gives first field source]
    by_cases same : name = field
    · subst same
      have absent : name ∉ e.map Prod.fst := by
        intro member
        obtain ⟨y, inside, same⟩ := List.mem_map.mp member
        exact others y inside (by rw [same]; exact List.mem_cons_self)
      have none_ : ¬ Entry.Gives e name := fun ⟨w, inside, _⟩ => absent (List.mem_map.mpr ⟨_, inside, rfl⟩)
      have here : Entry.Gives ((name, v) :: e) name ↔ v.isNull = false := by
        constructor
        · rintro ⟨w, inside, given⟩
          rcases List.mem_cons.mp inside with first | later
          · cases first
            exact given
          · exact (none_ ⟨w, later, given⟩).elim
        · exact fun given => ⟨v, List.mem_cons_self, given⟩
      simp [here, none_, absent]
    · have here : Entry.Gives ((name, v) :: e) field ↔ Entry.Gives e field := by
        simp [Entry.Gives, Ne.symm same]
      simp [here, same, Ne.symm same]

/-- An entry that is read names no field twice, and what is taken from it is what it gives. -/
theorem ofEntry_gives (read : ofEntry e = .ok d) : (e.map Prod.fst).Nodup ∧
    (d.value.isSome = true ↔ Entry.Gives e "value") ∧ (d.command.isSome = true ↔ Entry.Gives e "command") := by
  have value := putAll_gives read "value" (.inl rfl)
  have command := putAll_gives read "command" (.inr rfl)
  exact ⟨(putAll_names read).1, by simpa [gives] using value, by simpa [gives] using command⟩

end

end Draft

theorem functionOf_ok_iff {path name : String} {d : Draft} : (∃ f, functionOf path name d = .ok f) ↔
    Xor (d.value.isSome = true) (d.command.isSome = true) := by
  unfold functionOf
  cases d.value <;> cases d.command <;> simp [Xor]

/-! ## Loading -/

section
variable {files : Files} {path : String} {b : FunctionBag}

/-- The entries of a file, each as often as it is written. -/
def EntriesAt (files : Files) (path : String) (es : List (String × Entry)) : Prop :=
  ∃ text, files.readText path = .ok text ∧ entriesOf (Path.hasExtension "json" path) text = .ok es

theorem eachNamed_eq_ok_iff {α β : Type} {f : α → Except Misfit β} {xs : List (String × α)} {ys : List (String × β)} :
    eachNamed f xs = .ok ys ↔ List.Forall₂ (Made fun _ => f) xs ys := by
  rw [eachNamed, mapM_eq_ok_iff]
  refine ⟨fun made => made.imp fun x y done => ?_, fun made => made.imp fun x y done => ?_⟩
  · cases read : f x.2 with
    | error m =>
      rw [read] at done
      cases done
    | ok b =>
      rw [read] at done
      cases done
      exact ⟨rfl, read⟩
  · obtain ⟨same, read⟩ := done
    change f x.2 = .ok y.2 at read
    rw [read]
    exact congrArg Except.ok (Prod.ext same.symm rfl)

theorem functionsOf_eq_ok_iff {ds : List (String × Draft)} {fs : List (String × Function)} :
    functionsOf path ds = .ok fs ↔ List.Forall₂ (Made (functionOf path)) (sortedByName ds) fs :=
  mapM_made_iff

/-- Once the entries are known, each of them is read, and each one that counts makes a function. -/
theorem ofFile_read {es : List (String × Entry)} (entries : EntriesAt files path es) : ofFile files path =
    match eachNamed Draft.ofEntry es with
    | .error reason => .error (.functionBag (.unreadable path reason))
    | .ok ds => (functionsOf path ds).map fun fs => ⟨fs, some path⟩ := by
  obtain ⟨text, read, entries⟩ := entries
  unfold ofFile
  rw [read]
  simp only [bind, Except.bind, pure, Except.pure, entries]
  cases eachNamed Draft.ofEntry es with
  | error reason => rfl
  | ok ds => cases functionsOf path ds <;> rfl

theorem entries_of_ofFile (loaded : ofFile files path = .ok b) : ∃ es, EntriesAt files path es := by
  unfold ofFile at loaded
  cases read : files.readText path with
  | error e =>
    rw [read] at loaded
    cases loaded
  | ok text =>
    rw [read] at loaded
    cases entries : entriesOf (Path.hasExtension "json" path) text with
    | error reason =>
      simp only [bind, Except.bind, pure, Except.pure, entries] at loaded
      cases loaded
    | ok es => exact ⟨es, text, read, entries⟩

theorem ofFile_eq_ok_iff {es : List (String × Entry)} (entries : EntriesAt files path es) :
    ofFile files path = .ok b ↔ ∃ ds fs, List.Forall₂ (Made fun _ => Draft.ofEntry) es ds ∧
      List.Forall₂ (Made (functionOf path)) (sortedByName ds) fs ∧ b = ⟨fs, some path⟩ := by
  rw [ofFile_read entries]
  constructor
  · intro loaded
    cases drafts : eachNamed Draft.ofEntry es with
    | error reason =>
      rw [drafts] at loaded
      cases loaded
    | ok ds => cases functions : functionsOf path ds with
      | error e =>
        rw [drafts] at loaded
        dsimp only at loaded
        rw [functions] at loaded
        cases loaded
      | ok fs =>
        rw [drafts] at loaded
        dsimp only at loaded
        rw [functions] at loaded
        cases loaded
        exact ⟨ds, fs, eachNamed_eq_ok_iff.mp drafts, functionsOf_eq_ok_iff.mp functions, rfl⟩
  · rintro ⟨ds, fs, drafts, functions, rfl⟩
    rw [eachNamed_eq_ok_iff.mpr drafts]
    dsimp only
    rw [functionsOf_eq_ok_iff.mpr functions]
    rfl

/-! ## What is loaded -/

/-- Under each name stands what the last entry of the name makes, in the order of the names. -/
structure Loads (path : String) (es : List (String × Entry)) (b : FunctionBag) : Prop where
  source : b.source = some path
  ordered : b.names.Pairwise (· < ·)
  names : ∀ name, name ∈ b.names ↔ name ∈ es.map Prod.fst
  made : ∀ name e, last? es name = some e →
    ∃ d f, Draft.ofEntry e = .ok d ∧ functionOf path name d = .ok f ∧ b.find? name = some f

theorem ofFile_loads {es : List (String × Entry)} (entries : EntriesAt files path es)
    (loaded : ofFile files path = .ok b) : Loads path es b := by
  obtain ⟨ds, fs, drafts, functions, rfl⟩ := (ofFile_eq_ok_iff entries).mp loaded
  have names : fs.map Prod.fst = (sortedByName ds).map Prod.fst := names_made functions
  have draft (name : String) : (last? es name).map Draft.ofEntry = (last? ds name).map Except.ok :=
    lookup_made (List.rel_reverse drafts) name
  have function (name : String) : (last? ds name).map (functionOf path name) = (fs.lookup name).map Except.ok := by
    rw [← lookup_sortedByName]
    exact lookup_made functions name
  refine ⟨rfl, ?_, fun name => ?_, fun name e last => ?_⟩
  · rw [FunctionBag.names, names]
    exact sortedByName_ordered ds
  · rw [FunctionBag.names, names, ← names_made drafts]
    exact mem_names_sortedByName
  · have first := draft name
    rw [last, Option.map_some, eq_comm, Option.map_eq_some_iff] at first
    obtain ⟨d, there, read⟩ := first
    have second := function name
    rw [there, Option.map_some, eq_comm, Option.map_eq_some_iff] at second
    obtain ⟨f, found, made⟩ := second
    exact ⟨d, f, read.symm, made.symm, found⟩

/-- A file is loaded exactly if each of its entries can be read and each one that counts gives one of the two. -/
theorem ofFile_ok_iff {es : List (String × Entry)} (entries : EntriesAt files path es) :
    (∃ b, ofFile files path = .ok b) ↔ (∀ x ∈ es, ∃ d, Draft.ofEntry x.2 = .ok d) ∧
      ∀ name e, last? es name = some e → Xor (Entry.Gives e "value") (Entry.Gives e "command") := by
  have decides {name : String} {e : Entry} {d : Draft} (read : Draft.ofEntry e = .ok d) :
      (∃ f, functionOf path name d = .ok f) ↔ Xor (Entry.Gives e "value") (Entry.Gives e "command") := by
    obtain ⟨-, value, command⟩ := Draft.ofEntry_gives read
    rw [functionOf_ok_iff, value, command]
  constructor
  · rintro ⟨b, loaded⟩
    obtain ⟨ds, fs, drafts, -⟩ := (ofFile_eq_ok_iff entries).mp loaded
    refine ⟨made_each drafts, fun name e last => ?_⟩
    obtain ⟨d, f, read, made, -⟩ := (ofFile_loads entries loaded).made name e last
    exact (decides read).mp ⟨f, made⟩
  · rintro ⟨readable, single⟩
    obtain ⟨ds, drafts⟩ := exists_made (f := fun _ => Draft.ofEntry) readable
    have each : ∀ x ∈ sortedByName ds, ∃ f, functionOf path x.1 x.2 = .ok f := by
      rintro ⟨name, d⟩ member
      have there := lookup_made (List.rel_reverse drafts) name
      rw [← last?, ← last?, mem_sortedByName.mp member, Option.map_some, Option.map_eq_some_iff] at there
      obtain ⟨e, last, read⟩ := there
      exact (decides read).mpr (single name e last)
    obtain ⟨fs, functions⟩ := exists_made each
    exact ⟨_, (ofFile_eq_ok_iff entries).mpr ⟨ds, fs, drafts, functions, rfl⟩⟩

end

end PageSpec.FunctionBag
