import PageSpec.Proofs.Functions.Entries
import PageSpec.Proofs.Json.Records
/-!
Bag files that hold values. Every value but null comes back as it is written. A null counts as if nothing were written:
as the value of an entry it keeps the file from being loaded, and next to a command it goes unnoticed.
-/
namespace PageSpec.FunctionBag

/-- A JSON file with nothing but a value under each name. -/
structure HoldsValues (files : Files) (path : String) (vs : Fields) : Prop where
  json : Path.hasExtension "json" path = true
  once : (Fields.keys vs).Nodup
  read : ∃ text, files.readText path = .ok text ∧
    Json.readNested text = .ok (.fields (vs.map fun x => (x.1, .fields [("value", x.2)])))

/-- The file is loaded, its names are the given ones in order, and called under each of them the value comes back,
however programs are started. -/
def Served (files : Files) (path : String) (vs : Fields) : Prop :=
  ∃ b, ofFile files path = .ok b ∧ b.names.Pairwise (· < ·) ∧ (∀ name, name ∈ b.names ↔ name ∈ Fields.keys vs) ∧
    ∀ start name v, (name, v) ∈ vs → b.call start name files = (.ok v, files)

/-! ## Entries with a value -/

/-- The entry that holds a value alone. -/
def valueEntry (v : Json) : Entry := [("value", .ofJson v)]

section
variable {files : Files} {path : String} {vs : Fields} {v : Json}

theorem ofEntry_value (v : Json) :
    Draft.ofEntry (valueEntry v) = .ok ⟨if v.isNull then none else some v, none, []⟩ := rfl

theorem isNull_iff : v.isNull = true ↔ v = .null := by
  cases v <;> simp [Json.isNull]

theorem valueEntry_single : Xor (Entry.Gives (valueEntry v) "value") (Entry.Gives (valueEntry v) "command") ↔
    v ≠ .null := by
  have value : Entry.Gives (valueEntry v) "value" ↔ v ≠ .null := by
    simp [Entry.Gives, valueEntry, Datum.ofJson, ← isNull_iff]
  have command : ¬ Entry.Gives (valueEntry v) "command" := by
    simp [Entry.Gives, valueEntry]
  simp [value, command, Xor]

theorem HoldsValues.entries (holds : HoldsValues files path vs) :
    EntriesAt files path (vs.map fun x => (x.1, valueEntry x.2)) := by
  obtain ⟨text, there, read⟩ := holds.read
  refine ⟨text, there, ?_⟩
  rw [holds.json, entriesOf, if_pos rfl, read]
  exact eachNamed_eq_ok_iff.mpr (List.forall₂_map_left_iff.mpr (List.forall₂_map_right_iff.mpr
    (List.forall₂_same.mpr fun x _ => ⟨rfl, rfl⟩)))

theorem HoldsValues.standing (holds : HoldsValues files path vs) {name : String} {e : Entry} :
    last? (vs.map fun x => (x.1, valueEntry x.2)) name = some e ↔ ∃ v, (name, v) ∈ vs ∧ valueEntry v = e := by
  have once : ((vs.map fun x => (x.1, valueEntry x.2)).map Prod.fst).Nodup := by
    rw [List.map_map]
    exact holds.once
  rw [last?_eq_some_iff once, List.mem_map]
  simp

theorem HoldsValues.served_iff (holds : HoldsValues files path vs) :
    Served files path vs ↔ ∀ x ∈ vs, x.2 ≠ .null := by
  constructor
  · rintro ⟨b, loaded, -⟩ ⟨name, v⟩ member
    have single := ((ofFile_ok_iff holds.entries).mp ⟨b, loaded⟩).2
    exact valueEntry_single.mp (single name _ (holds.standing.mpr ⟨v, member, rfl⟩))
  · intro given
    have readable : ∀ x ∈ vs.map (fun x => (x.1, valueEntry x.2)), ∃ d, Draft.ofEntry x.2 = .ok d := by
      intro x member
      obtain ⟨y, -, rfl⟩ := List.mem_map.mp member
      exact ⟨_, ofEntry_value y.2⟩
    have single : ∀ name e, last? (vs.map fun x => (x.1, valueEntry x.2)) name = some e →
        Xor (Entry.Gives e "value") (Entry.Gives e "command") := by
      intro name e last
      obtain ⟨v, member, rfl⟩ := holds.standing.mp last
      exact valueEntry_single.mpr (given _ member)
    obtain ⟨b, loaded⟩ := (ofFile_ok_iff holds.entries).mpr ⟨readable, single⟩
    have loads := ofFile_loads holds.entries loaded
    refine ⟨b, loaded, loads.ordered, fun name => ?_, fun _ name v member => ?_⟩
    · rw [loads.names, List.map_map]
      rfl
    · obtain ⟨d, f, read, made, found⟩ := loads.made name _ (holds.standing.mpr ⟨v, member, rfl⟩)
      have solid : v.isNull = false := Bool.eq_false_iff.mpr (mt isNull_iff.mp (given _ member))
      cases (ofEntry_value v).symm.trans read
      rw [solid] at made
      cases made
      rw [call, found]

end

/-! ## Written files -/

/-- An object with nothing but a value under each name. -/
def valuesObject (vs : Fields) : Json := Json.nested (vs.map fun x => (x.1, [("value", x.2)]))

/-- A JSON file in which such an object is written, with any blanks; no name is repeated in it, and its numbers are
integers. -/
structure WritesValues (files : Files) (path : String) (vs : Fields) : Prop where
  json : Path.hasExtension "json" path = true
  once : (Fields.keys vs).Nodup
  tidy : ∀ x ∈ vs, x.2.Tidy
  integral : ∀ x ∈ vs, x.2.Integral
  text : ∃ l : Json.Spacing, files.readText path = .ok (.ofList (Json.write l Json.stringChars (valuesObject vs)))

section
variable {files : Files} {path : String} {vs : Fields}

theorem valuesObject_eq (vs : Fields) :
    valuesObject vs = .obj (vs.map fun x => (x.1, .obj [("value", x.2)])) := by
  rw [valuesObject, Json.nested, List.map_map]
  rfl

theorem valuesObject_tidy (once : (Fields.keys vs).Nodup) (tidy : ∀ x ∈ vs, x.2.Tidy) : (valuesObject vs).Tidy := by
  have fields : Json.TidyFields (vs.map fun x => (x.1, .obj [("value", x.2)])) := by
    clear once
    induction vs with
    | nil => trivial
    | cons x vs ih =>
      obtain ⟨first, others⟩ := List.forall_mem_cons.mp tidy
      exact ⟨⟨List.nodup_singleton _, first, trivial⟩, ih others⟩
  rw [valuesObject_eq, Json.Tidy]
  refine ⟨?_, fields⟩
  rw [Fields.keys, List.map_map]
  exact once

theorem valuesObject_integral (integral : ∀ x ∈ vs, x.2.Integral) : (valuesObject vs).Integral := by
  rw [valuesObject_eq, Json.Integral]
  induction vs with
  | nil => trivial
  | cons x vs ih =>
    obtain ⟨first, others⟩ := List.forall_mem_cons.mp integral
    exact ⟨⟨first, trivial⟩, ih others⟩

theorem valuesObject_shallow_iff :
    (valuesObject vs).depth ≤ Json.Reader.maxDepth ↔ ∀ x ∈ vs, x.2.depth ≤ 125 := by
  rw [valuesObject_eq, Json.depth, Json.Reader.maxDepth]
  induction vs with
  | nil => simp [Json.depthFields]
  | cons x vs ih =>
    rw [List.forall_mem_cons, ← ih]
    simp only [List.map_cons, Json.depthFields, Json.depth]
    omega

/-- What is written is read back unless it is nested too deep. -/
theorem WritesValues.holds (writes : WritesValues files path vs) (shallow : ∀ x ∈ vs, x.2.depth ≤ 125) :
    HoldsValues files path vs := by
  obtain ⟨l, there⟩ := writes.text
  have read := Json.readNested_write l ⟨valuesObject_tidy writes.once writes.tidy,
    valuesObject_integral writes.integral, valuesObject_shallow_iff.mpr shallow⟩
  rw [List.map_map] at read
  exact ⟨writes.json, writes.once, _, there, read⟩

theorem WritesValues.served_iff (writes : WritesValues files path vs) :
    Served files path vs ↔ ∀ x ∈ vs, x.2 ≠ .null ∧ x.2.depth ≤ 125 := by
  by_cases shallow : ∀ x ∈ vs, x.2.depth ≤ 125
  · rw [(writes.holds shallow).served_iff, forall₂_congr fun x member => (and_iff_left (shallow x member)).symm]
  · refine iff_of_false ?_ fun both => shallow fun x member => (both x member).2
    rintro ⟨b, loaded, -⟩
    obtain ⟨l, there⟩ := writes.text
    obtain ⟨e, unread⟩ := Json.readNested_deep l (valuesObject_tidy writes.once writes.tidy)
      (valuesObject_integral writes.integral) (Nat.not_le.mp (mt valuesObject_shallow_iff.mp shallow))
    obtain ⟨es, text, there', entries⟩ := entries_of_ofFile loaded
    cases there.symm.trans there'
    rw [writes.json, entriesOf, if_pos rfl, valuesObject, unread] at entries
    cases entries

end

/-! ## Values and commands -/

/-- An entry gives one of the two, and unless there is a null in place of one, one of them is all that is written. -/
structure Single (e : Entry) : Prop where
  gives : Xor (Entry.Gives e "value") (Entry.Gives e "command")
  written : Xor ("value" ∈ e.map Prod.fst) ("command" ∈ e.map Prod.fst) ↔
    ∀ name v, (name, v) ∈ e → name = "value" ∨ name = "command" → v.isNull = false

theorem single_of_gives {e : Entry} (once : (e.map Prod.fst).Nodup)
    (gives : Xor (Entry.Gives e "value") (Entry.Gives e "command")) : Single e := by
  have given (name : String) : (∀ v, (name, v) ∈ e → v.isNull = false) ↔
      (name ∈ e.map Prod.fst → Entry.Gives e name) := by
    constructor
    · intro solid member
      obtain ⟨⟨_, v⟩, inside, rfl⟩ := List.mem_map.mp member
      exact ⟨v, inside, solid v inside⟩
    · intro present v member
      obtain ⟨w, inside, solid⟩ := present (List.mem_map.mpr ⟨_, member, rfl⟩)
      obtain rfl : v = w := congrArg Prod.snd (List.inj_on_of_nodup_map once member inside rfl)
      exact solid
  have written {name : String} (gives : Entry.Gives e name) : name ∈ e.map Prod.fst := by
    obtain ⟨v, member, -⟩ := gives
    exact List.mem_map.mpr ⟨_, member, rfl⟩
  have both : (∀ name v, (name, v) ∈ e → name = "value" ∨ name = "command" → v.isNull = false) ↔
      (∀ v, ("value", v) ∈ e → v.isNull = false) ∧ ∀ v, ("command", v) ∈ e → v.isNull = false := by
    constructor
    · exact fun each => ⟨fun v member => each _ v member (.inl rfl), fun v member => each _ v member (.inr rfl)⟩
    · rintro ⟨value, command⟩ name v member (rfl | rfl)
      · exact value v member
      · exact command v member
  refine ⟨gives, ?_⟩
  rw [both, given, given]
  rcases gives with ⟨here, other⟩ | ⟨here, other⟩
  · simp [here, other, written here, Xor]
  · simp [here, other, written here, Xor]

section
variable {files : Files} {path : String} {b : FunctionBag}

theorem ofFile_single (loaded : ofFile files path = .ok b) :
    ∃ es, EntriesAt files path es ∧ ∀ name e, last? es name = some e → Single e := by
  obtain ⟨es, entries⟩ := entries_of_ofFile loaded
  refine ⟨es, entries, fun name e last => ?_⟩
  obtain ⟨d, -, read, -⟩ := (ofFile_loads entries loaded).made name e last
  exact single_of_gives (Draft.ofEntry_gives read).1 (((ofFile_ok_iff entries).mp ⟨b, loaded⟩).2 name e last)

end

/-- Values come back from their file exactly if none of them is null, and, as they are written, none is nested too
deep. Whatever the file, each entry of one that is loaded gives either a value or a command. -/
theorem ofFile_values (files : Files) (path : String) :
    (∀ vs, HoldsValues files path vs → (Served files path vs ↔ ∀ x ∈ vs, x.2 ≠ .null)) ∧
    (∀ vs, WritesValues files path vs → (Served files path vs ↔ ∀ x ∈ vs, x.2 ≠ .null ∧ x.2.depth ≤ 125)) ∧
    ∀ b, ofFile files path = .ok b →
      ∃ es, EntriesAt files path es ∧ ∀ name e, last? es name = some e → Single e :=
  ⟨fun _ holds => holds.served_iff, fun _ writes => writes.served_iff, fun _ loaded => ofFile_single loaded⟩

/-- A file with two values. -/
def twoValues : Files :=
  ⟨[(["bag.json"], .text "\x7b\"off\":\x7b\"value\":false\x7d,\"all\":\x7b\"value\":[]\x7d\x7d")], []⟩

theorem twoValues_served : HoldsValues twoValues "bag.json" [("off", .bool false), ("all", .arr [])] ∧
    WritesValues twoValues "bag.json" [("off", .bool false), ("all", .arr [])] ∧
    Served twoValues "bag.json" [("off", .bool false), ("all", .arr [])] ∧
    ∃ es, EntriesAt twoValues "bag.json" es ∧ ∀ name e, last? es name = some e → Single e := by
  have writes : WritesValues twoValues "bag.json" [("off", .bool false), ("all", .arr [])] :=
    ⟨by decide +kernel, by decide +kernel, by simp [Json.Tidy, Json.TidyItems],
      by simp [Json.Integral, Json.IntegralItems], .compact, congrArg Except.ok (by decide +kernel)⟩
  have holds := writes.holds (by simp [Json.depth, Json.depthItems])
  obtain ⟨read, written, single⟩ := ofFile_values twoValues "bag.json"
  have served := (read _ holds).mpr (by simp)
  have served' := (written _ writes).mpr (by simp [Json.depth, Json.depthItems])
  obtain ⟨b, loaded, -⟩ := served
  exact ⟨holds, writes, served', single b loaded⟩

/-- Files with a null, by itself and next to a command. -/
def nullAlone : Files := ⟨[(["bag.json"], .text "\x7b\"none\":\x7b\"value\":null\x7d\x7d")], []⟩
def nullBeside : Files :=
  ⟨[(["bag.json"], .text "\x7b\"both\":\x7b\"value\":null,\"command\":\"echo\"\x7d\x7d")], []⟩

/-- By itself a null does not come back; next to a command it is not noticed. -/
theorem null_unserved : HoldsValues nullAlone "bag.json" [("none", .null)] ∧
    ofFile nullAlone "bag.json" = .error (.functionBag (.entryShape "bag.json" "none")) ∧
    ¬ Served nullAlone "bag.json" [("none", .null)] ∧
    EntriesAt nullBeside "bag.json" [("both", [("value", .ofJson .null), ("command", .ofJson (.str "echo"))])] ∧
    ∃ b, ofFile nullBeside "bag.json" = .ok b := by
  have writes : WritesValues nullAlone "bag.json" [("none", .null)] :=
    ⟨by decide +kernel, by decide +kernel, by simp [Json.Tidy], by simp [Json.Integral], .compact,
      congrArg Except.ok (by decide +kernel)⟩
  have holds := writes.holds (by simp [Json.depth])
  have failed : ofFile nullAlone "bag.json" = .error (.functionBag (.entryShape "bag.json" "none")) := by
    have sorted : sortedByName [("none", (⟨none, none, []⟩ : Draft))] = [("none", ⟨none, none, []⟩)] := by
      simp [sortedByName, lastOnes]
    rw [ofFile_read holds.entries]
    change (functionsOf "bag.json" [("none", ⟨none, none, []⟩)]).map _ = _
    rw [functionsOf, sorted]
    rfl
  have entries : EntriesAt nullBeside "bag.json"
      [("both", [("value", .ofJson .null), ("command", .ofJson (.str "echo"))])] := by
    have json : Path.hasExtension "json" "bag.json" = true := by decide +kernel
    let both := Json.nested [("both", [("value", .null), ("command", .str "echo")])]
    have readable : both.Readable :=
      ⟨by simp [both, Json.nested, Json.Tidy, Json.TidyFields, Fields.keys],
        by simp [both, Json.nested, Json.Integral, Json.IntegralFields], by decide +kernel⟩
    have there : nullBeside.readText "bag.json" = .ok (.ofList (Json.write .compact Json.stringChars both)) :=
      congrArg Except.ok (by decide +kernel)
    refine ⟨_, there, ?_⟩
    rw [json, entriesOf, if_pos rfl, Json.readNested_write .compact readable]
    rfl
  refine ⟨holds, failed, ?_, entries, (ofFile_ok_iff entries).mpr ⟨List.forall_mem_singleton.mpr ⟨_, rfl⟩, ?_⟩⟩
  · rintro ⟨b, loaded, -⟩
    cases failed.symm.trans loaded
  · intro name e last
    rw [last?_eq_some_iff (by simp), List.mem_singleton] at last
    obtain ⟨rfl, rfl⟩ := Prod.mk.inj last
    refine .inr ⟨⟨_, List.mem_cons_of_mem _ List.mem_cons_self, rfl⟩, ?_⟩
    simp [Entry.Gives, Datum.ofJson, Json.isNull]

end PageSpec.FunctionBag
