import PageSpec.Json.Records
import PageSpec.Proofs.Json.Written
/-!
Records that are read. A text is read as a record exactly if it is read as a value, and the value is the record without
the fields that are written again. What is written of objects is read back field by field; an object that is nested too
deep is refused.
-/
namespace PageSpec.Json

/-- The value that a record comes to, of whose fields with one name the last one counts. -/
def Record.value {α : Type} (g : α → Json) : Record α → Json
  | .fields fs => .obj (Fields.ofWrites (fs.map fun f => (f.1, g f.2)))
  | .other v => v

namespace Reader

/-! ## Records and values -/

section
variable {α : Type} (item : Nat → Nat → List Char → Except Stop (α × List Char)) (fuel depth : Nat) (k : String)

/-- What is read behind a member. -/
def membersBehind (a : α) (cs : List Char) : Except Stop (List (String × α) × List Char) :=
  match skip cs with
  | ',' :: more => (members (item · depth) fuel more).bind fun p => .ok ((k, a) :: p.1, p.2)
  | '}' :: more => .ok ([(k, a)], more)
  | more => .error (if more.isEmpty then .ended else .unexpected, more)

/-- What is read behind the name of a member. -/
def itemBehind (cs : List Char) : Except Stop (List (String × α) × List Char) :=
  match skip cs with
  | ':' :: more => (item fuel depth more).bind fun p => membersBehind item fuel depth k p.1 p.2
  | more => .error (if more.isEmpty then .ended else .unexpected, more)

end

section
variable {α : Type} {item : Nat → Nat → List Char → Except Stop (α × List Char)} {g : α → Json} {fuel depth : Nat}
  {k : String}

/-- What a reader reads comes to the value that is read there, and it fails where that fails. -/
def ReadsAs (item : Nat → Nat → List Char → Except Stop (α × List Char)) (g : α → Json) : Prop :=
  ∀ fuel depth cs, (item fuel depth cs).map (fun p => (g p.1, p.2)) = value fuel depth cs

/-- The values of members. -/
def fieldsOf (g : α → Json) (p : List (String × α) × List Char) : Fields × List Char :=
  (p.1.map fun f => (f.1, g f.2), p.2)

theorem fieldsBehind_of (others : ∀ cs, (members (item · depth) fuel cs).map (fieldsOf g) = fields fuel depth cs)
    (a : α) (cs : List Char) :
    (membersBehind item fuel depth k a cs).map (fieldsOf g) = fieldsBehind fuel depth k (g a) cs := by
  unfold membersBehind fieldsBehind
  generalize skip cs = more
  split
  · rename_i more
    change _ = (fields fuel depth more).bind _
    rw [← others]
    cases members (item · depth) fuel more <;> rfl
  · rfl
  · grind [Except.map]

theorem valueBehind_of (same : ReadsAs item g)
    (others : ∀ cs, (members (item · depth) fuel cs).map (fieldsOf g) = fields fuel depth cs) (cs : List Char) :
    (itemBehind item fuel depth k cs).map (fieldsOf g) = valueBehind fuel depth k cs := by
  unfold itemBehind valueBehind
  generalize skip cs = more
  split
  · rename_i more
    change _ = (value fuel depth more).bind _
    rw [← same]
    cases item fuel depth more with
    | error e => rfl
    | ok p => exact fieldsBehind_of others p.1 p.2
  · grind [Except.map]

theorem fields_of (same : ReadsAs item g) (depth : Nat) : ∀ (fuel : Nat) (cs : List Char),
    (members (item · depth) fuel cs).map (fieldsOf g) = fields fuel depth cs
  | 0, _ => rfl
  | fuel + 1, cs => by
    rw [members, fields]
    generalize skip cs = more
    split
    · rename_i r
      change ((stringRest r).bind fun p => itemBehind item fuel depth (.ofList p.1) p.2).map (fieldsOf g) =
        (stringRest r).bind fun p => valueBehind fuel depth (.ofList p.1) p.2
      cases stringRest r with
      | error e => rfl
      | ok p => exact valueBehind_of same (fields_of same depth fuel) p.2
    · grind [Except.map]

theorem readsAs_value : ReadsAs value id := fun fuel depth cs => by
  cases value fuel depth cs <;> rfl

theorem value_skip (cs : List Char) : value (fuel + 1) depth (skip cs) = value (fuel + 1) depth cs := by
  have spaces : ∀ c ∈ cs.takeWhile isSpace, isSpace c = true := fun c member => List.mem_takeWhile_imp member
  rw [← value_blanks spaces]
  exact congrArg _ List.takeWhile_append_dropWhile

theorem readsAs_record (same : ReadsAs item g) : ReadsAs (record item) (Record.value g)
  | 0, depth, cs => rfl
  | fuel + 1, depth, cs => by
    rw [record, ← value_skip]
    split
    · rename_i r brace
      rw [brace]
      cases depth with
      | zero => rfl
      | succ d =>
        rw [value_brace]
        dsimp only
        generalize skip r = more
        have objects : (fields fuel d more).map (fun p => (Json.obj (Fields.ofWrites p.1), p.2)) =
            ((members (item · d) fuel more).map fun p => (Record.fields p.1, p.2)).map
              fun p => (Record.value g p.1, p.2) := by
          rw [← fields_of same d fuel more]
          cases members (item · d) fuel more <;> rfl
        split
        · rfl
        · grind
    · cases value (fuel + 1) depth (skip cs) <;> rfl

end

/-! ## Reading back -/

section
variable {α : Type} {item : Nat → Nat → List Char → Except Stop (α × List Char)} {fuel depth : Nat} {k : String}
  {blanks cs rest : List Char} {a : α}

theorem members_quote (cs : List Char) : members (item · depth) (fuel + 1) ('"' :: cs) =
    (stringRest cs).bind fun p => itemBehind item fuel depth (.ofList p.1) p.2 := by
  rw [members, skip_sign (by decide)]
  rfl

theorem itemBehind_colon (blank : ∀ c ∈ blanks, isSpace c = true) (cs : List Char) :
    itemBehind item fuel depth k (blanks ++ ':' :: cs) =
      (item fuel depth cs).bind fun p => membersBehind item fuel depth k p.1 p.2 := by
  rw [itemBehind, skip_blanks blank, skip_sign (by decide)]
  rfl

theorem membersBehind_last (blank : ∀ c ∈ blanks, isSpace c = true) :
    membersBehind item fuel depth k a (blanks ++ '}' :: rest) = .ok ([(k, a)], rest) := by
  rw [membersBehind, skip_blanks blank, skip_sign (by decide)]
  rfl

theorem membersBehind_comma (blank : ∀ c ∈ blanks, isSpace c = true) (cs : List Char) :
    membersBehind item fuel depth k a (blanks ++ ',' :: cs) =
      (members (item · depth) fuel cs).bind fun p => .ok ((k, a) :: p.1, p.2) := by
  rw [membersBehind, skip_blanks blank, skip_sign (by decide)]
  rfl

theorem members_blanks (blank : ∀ c ∈ blanks, isSpace c = true) (cs : List Char) :
    members (item · depth) (fuel + 1) (blanks ++ cs) = members (item · depth) (fuel + 1) cs := by
  rw [members, members, skip_blanks blank]

theorem record_blanks (blank : ∀ c ∈ blanks, isSpace c = true) (cs : List Char) :
    record item (fuel + 1) depth (blanks ++ cs) = record item (fuel + 1) depth cs := by
  rw [record, record, skip_blanks blank]

theorem record_brace (cs : List Char) : record item (fuel + 1) (depth + 1) ('{' :: cs) = match skip cs with
    | '}' :: rest => .ok (.fields [], rest)
    | rest => (members (item · depth) fuel rest).map fun p => (.fields p.1, p.2) := by
  rw [record, skip_sign (by decide)]
  rfl

theorem record_none (blank : ∀ c ∈ blanks, isSpace c = true) (rest : List Char) :
    record item (fuel + 1) (depth + 1) ('{' :: (blanks ++ '}' :: rest)) = .ok (.fields [], rest) := by
  rw [record_brace, skip_blanks blank, skip_sign (by decide)]
  rfl

theorem record_some (blank : ∀ c ∈ blanks, isSpace c = true) (cs : List Char) :
    record item (fuel + 1) (depth + 1) ('{' :: (blanks ++ '"' :: cs)) =
      (members (item · depth) fuel ('"' :: cs)).map fun p => (.fields p.1, p.2) := by
  rw [record_brace, skip_blanks blank, skip_sign (by decide)]
  rfl

/-- A name between quotes, a colon and an item are read. -/
theorem members_read (blank : ∀ c ∈ blanks, isSpace c = true) (read : item fuel depth cs = .ok (a, rest)) :
    members (item · depth) (fuel + 1) (stringChars k ++ (blanks ++ ':' :: cs)) =
      membersBehind item fuel depth k a rest := by
  have written : stringChars k ++ (blanks ++ ':' :: cs) =
      '"' :: (k.toList.flatMap escapeChar ++ '"' :: (blanks ++ ':' :: cs)) := by
    simp [stringChars]
  rw [written, members_quote, stringRest_string]
  change itemBehind item fuel depth (.ofList k.toList) (blanks ++ ':' :: cs) = _
  rw [String.ofList_toList, itemBehind_colon blank, read]
  rfl

end

section
variable {α : Type} {item : Nat → Nat → List Char → Except Stop (α × List Char)} {depth : Nat} {f : Json → α}

/-- A reader gets something out of a written value, with blanks before it and whatever behind it. -/
def ReadsBack (l : Spacing) (item : Nat → Nat → List Char → Except Stop (α × List Char)) (depth : Nat) (v : Json)
    (a : α) : Prop :=
  ∀ (fuel : Nat) (blanks rest : List Char), (∀ c ∈ blanks, isSpace c = true) →
    2 * (write l stringChars v).length ≤ fuel + 1 → Ends rest →
    item (fuel + 1) depth (blanks ++ (write l stringChars v ++ rest)) = .ok (a, rest)

theorem readsBack_value (l : Spacing) {v : Json} (tidy : v.Tidy) (integral : v.Integral) (shallow : v.depth ≤ depth) :
    ReadsBack l value depth v v := fun fuel blanks rest blank enough ends => by
  rw [value_blanks blank]
  exact value_write l v fuel depth rest tidy integral shallow enough ends

/-- A written member is read back, and then what stands behind it is read. -/
theorem members_write {l : Spacing} {v : Json} {a : α} (back : ReadsBack l item depth v a) {fuel : Nat}
    (enough : 2 * (write l stringChars v).length ≤ fuel + 1) (k : String) (fs : Fields) (rest : List Char) :
    members (item · depth) (fuel + 2) (stringChars k ++ (l.beforeColon ++ ':' ::
        (l.afterColon ++ (write l stringChars v ++ (writeFields l stringChars fs ++ rest))))) =
      membersBehind item (fuel + 1) depth k a (writeFields l stringChars fs ++ rest) :=
  members_read l.beforeColon_blank (back fuel l.afterColon _ l.afterColon_blank enough (writeFields_ends fs rest))

theorem membersBehind_write (l : Spacing) : ∀ (fs : Fields) (fuel : Nat) (k : String) (a : α) (rest : List Char),
    (∀ x ∈ fs, ReadsBack l item depth x.2 (f x.2)) → 2 * (writeFields l stringChars fs).length ≤ fuel →
    membersBehind item fuel depth k a (writeFields l stringChars fs ++ rest) =
      .ok ((k, a) :: fs.map fun x => (x.1, f x.2), rest)
  | [], fuel, k, a, rest, _, _ => by
    rw [writeFields, List.append_assoc]
    exact membersBehind_last l.closing_blank
  | (k', v) :: fs, fuel, k, a, rest, each, enough => by
    simp only [writeFields, stringChars, Spacing.comma, Spacing.colon, List.length_cons, List.length_append] at enough
    obtain ⟨n, rfl⟩ : ∃ n, fuel = n + 2 := ⟨fuel - 2, by omega⟩
    have back : ReadsBack l item depth v (f v) := each (k', v) List.mem_cons_self
    have others := membersBehind_write l fs (n + 1) k' (f v) rest
      (fun x member => each x (List.mem_cons_of_mem _ member)) (by omega)
    have read := (members_write back (by omega) k' fs rest).trans others
    rw [← members_blanks l.afterComma_blank] at read
    rw [writeFields, Spacing.comma, Spacing.colon]
    simp only [List.append_assoc, List.cons_append] at read ⊢
    rw [membersBehind_comma l.beforeComma_blank, read]
    rfl

theorem readsBack_record (l : Spacing) {fs : Fields} (each : ∀ x ∈ fs, ReadsBack l item depth x.2 (f x.2)) :
    ReadsBack l (record item) (depth + 1) (.obj fs) (.fields (fs.map fun x => (x.1, f x.2))) := by
  intro fuel blanks rest blank enough _
  cases fs with
  | nil =>
    rw [record_blanks blank, write, List.cons_append, List.append_assoc]
    exact record_none l.opened_blank rest
  | cons x fs =>
    obtain ⟨k, v⟩ := x
    simp only [write, stringChars, Spacing.colon, List.length_cons, List.length_append] at enough
    obtain ⟨n, rfl⟩ : ∃ n, fuel = n + 2 := ⟨fuel - 2, by omega⟩
    have back : ReadsBack l item depth v (f v) := each (k, v) List.mem_cons_self
    have others := membersBehind_write l fs (n + 1) k (f v) rest
      (fun x member => each x (List.mem_cons_of_mem _ member)) (by omega)
    have read := (members_write back (by omega) k fs rest).trans others
    have quoted : stringChars k = '"' :: (k.toList.flatMap escapeChar ++ ['"']) := rfl
    rw [record_blanks blank, write, Spacing.colon]
    simp only [List.cons_append, List.append_assoc, quoted] at read ⊢
    rw [record_some l.opened_blank, read]
    rfl

end

/-! ## Nesting too deep -/

section
variable {fuel depth : Nat} {cs rest : List Char} {k : String} {v x : Json}

/-- Nothing is read. -/
def Refused {α : Type} (read : Except Stop α) : Prop := ∃ e, read = .error e

theorem Refused.map {α β : Type} {read : Except Stop α} (refused : Refused read) (f : α → β) :
    Refused (read.map f) := by
  obtain ⟨e, rfl⟩ := refused
  exact ⟨e, rfl⟩

theorem Refused.bind {α β : Type} {read : Except Stop α} (refused : Refused read) (f : α → Except Stop β) :
    Refused (read.bind f) := by
  obtain ⟨e, rfl⟩ := refused
  exact ⟨e, rfl⟩

theorem items_refused (refused : Refused (value fuel depth cs)) : Refused (items (fuel + 1) depth cs) := by
  obtain ⟨e, read⟩ := refused
  exact ⟨e, by rw [items, read]; rfl⟩

theorem fields_refused {blanks : List Char} (blank : ∀ c ∈ blanks, isSpace c = true)
    (refused : Refused (value fuel depth cs)) :
    Refused (fields (fuel + 1) depth (stringChars k ++ (blanks ++ ':' :: cs))) := by
  have written : stringChars k ++ (blanks ++ ':' :: cs) =
      '"' :: (k.toList.flatMap escapeChar ++ '"' :: (blanks ++ ':' :: cs)) := by
    simp [stringChars]
  rw [written, fields_quote, stringRest_string]
  change Refused (valueBehind fuel depth (.ofList k.toList) (blanks ++ ':' :: cs))
  rw [valueBehind_colon blank]
  exact refused.bind _

theorem itemsBehind_refused {blanks : List Char} (blank : ∀ c ∈ blanks, isSpace c = true)
    (refused : Refused (items fuel depth cs)) : Refused (itemsBehind fuel depth x (blanks ++ ',' :: cs)) := by
  rw [itemsBehind, skip_blanks blank, skip_sign (by decide)]
  exact refused.bind _

theorem fieldsBehind_refused {blanks : List Char} (blank : ∀ c ∈ blanks, isSpace c = true)
    (refused : Refused (fields fuel depth cs)) : Refused (fieldsBehind fuel depth k v (blanks ++ ',' :: cs)) := by
  rw [fieldsBehind, skip_blanks blank, skip_sign (by decide)]
  exact refused.bind _

/-- Written items are refused for the first one or for those behind it. -/
theorem items_stopped {l : Spacing} (blanks : List Char) (blank : ∀ c ∈ blanks, isSpace c = true) (tidy : x.Tidy)
    (integral : x.Integral) (enough : 2 * (write l stringChars x).length ≤ fuel + 1) {xs : List Json}
    (first : depth < x.depth →
      Refused (value (fuel + 1) depth (write l stringChars x ++ (writeItems l stringChars xs ++ rest))))
    (others : x.depth ≤ depth → Refused (itemsBehind (fuel + 1) depth x (writeItems l stringChars xs ++ rest))) :
    Refused (items (fuel + 2) depth
      (blanks ++ (write l stringChars x ++ (writeItems l stringChars xs ++ rest)))) := by
  by_cases shallow : x.depth ≤ depth
  · have read := value_write l x fuel depth (writeItems l stringChars xs ++ rest) tidy integral shallow
      enough (writeItems_ends xs rest)
    rw [← value_blanks blank] at read
    rw [items_read read]
    exact others shallow
  · have refused := first (Nat.not_le.mp shallow)
    rw [← value_blanks blank] at refused
    exact items_refused refused

/-- Written fields are refused for the first one or for those behind it. -/
theorem fields_stopped {l : Spacing} (tidy : v.Tidy) (integral : v.Integral)
    (enough : 2 * (write l stringChars v).length ≤ fuel + 1) {fs : Fields}
    (first : depth < v.depth →
      Refused (value (fuel + 1) depth (write l stringChars v ++ (writeFields l stringChars fs ++ rest))))
    (others : v.depth ≤ depth → Refused (fieldsBehind (fuel + 1) depth k v (writeFields l stringChars fs ++ rest))) :
    Refused (fields (fuel + 2) depth (stringChars k ++ (l.beforeColon ++ ':' ::
      (l.afterColon ++ (write l stringChars v ++ (writeFields l stringChars fs ++ rest)))))) := by
  by_cases shallow : v.depth ≤ depth
  · have read := value_write l v fuel depth (writeFields l stringChars fs ++ rest) tidy integral shallow
      enough (writeFields_ends fs rest)
    rw [← value_blanks l.afterColon_blank] at read
    rw [fields_read l.beforeColon_blank read]
    exact others shallow
  · have refused := first (Nat.not_le.mp shallow)
    rw [← value_blanks l.afterColon_blank] at refused
    exact fields_refused l.beforeColon_blank refused

/-- At the last level no bracket is opened. -/
theorem value_bottom {c : Char} (bracket : c = '[' ∨ c = '{') (cs : List Char) :
    Refused (value (fuel + 1) 0 (c :: cs)) := by
  rcases bracket with rfl | rfl <;> exact ⟨_, by rw [value, skip_sign (by decide)]; rfl⟩

end

end Reader

mutual
/-- A written value that is nested too deep is refused. -/
theorem value_deep (l : Spacing) : ∀ (v : Json) (fuel depth : Nat) (rest : List Char), v.Tidy → v.Integral →
    depth < v.depth → 2 * (write l stringChars v).length ≤ fuel + 1 →
    Reader.Refused (Reader.value (fuel + 1) depth (write l stringChars v ++ rest))
  | .null, _, _, _, _, _, deep, _ | .bool _, _, _, _, _, _, deep, _ | .int _, _, _, _, _, _, deep, _
  | .float _, _, _, _, _, _, deep, _ | .str _, _, _, _, _, _, deep, _ => (Nat.not_lt_zero _ deep).elim
  | .arr [], fuel, depth, rest, _, _, deep, _ => by
    obtain rfl : depth = 0 := Nat.lt_one_iff.mp deep
    exact Reader.value_bottom (.inl rfl) _
  | .obj [], fuel, depth, rest, _, _, deep, _ => by
    obtain rfl : depth = 0 := Nat.lt_one_iff.mp deep
    exact Reader.value_bottom (.inr rfl) _
  | .arr (x :: xs), fuel, depth, rest, tidy, integral, deep, enough => by
    simp only [Json.depth, depthItems] at deep
    simp only [write, List.length_cons, List.length_append] at enough
    obtain ⟨c, cs, opens, sign, open_⟩ := write_opens l stringChars integral.1
    have some_ := congrArg List.length opens
    rw [List.length_cons] at some_
    cases depth with
    | zero => exact Reader.value_bottom (.inl rfl) _
    | succ d =>
      obtain ⟨f, rfl⟩ : ∃ f, fuel = f + 2 := ⟨fuel - 2, by omega⟩
      have refused : Reader.Refused
          (Reader.items (f + 2) d (write l stringChars x ++ (writeItems l stringChars xs ++ rest))) :=
        Reader.items_stopped [] (by simp) tidy.1 integral.1 (by omega)
          (fun deeper => value_deep l x f d _ tidy.1 integral.1 deeper (by omega))
          (fun shallow => items_deep l xs (f + 1) d x rest tidy.2 integral.2 (by omega) (by omega))
      rw [write, List.cons_append, List.append_assoc, List.append_assoc]
      rw [opens] at refused ⊢
      rw [List.cons_append, Reader.value_items sign open_ l.opened_blank]
      exact refused.map _
  | .obj ((k, v) :: fs), fuel, depth, rest, tidy, integral, deep, enough => by
    simp only [Json.depth, depthFields] at deep
    simp only [write, stringChars, Spacing.colon, List.length_cons, List.length_append] at enough
    cases depth with
    | zero => exact Reader.value_bottom (.inr rfl) _
    | succ d =>
      obtain ⟨f, rfl⟩ : ∃ f, fuel = f + 2 := ⟨fuel - 2, by omega⟩
      have refused : Reader.Refused (Reader.fields (f + 2) d (stringChars k ++ (l.beforeColon ++ ':' ::
          (l.afterColon ++ (write l stringChars v ++ (writeFields l stringChars fs ++ rest)))))) :=
        Reader.fields_stopped tidy.2.1 integral.1 (by omega)
          (fun deeper => value_deep l v f d _ tidy.2.1 integral.1 deeper (by omega))
          (fun shallow => fields_deep l fs (f + 1) d k v rest tidy.2.2 integral.2 (by omega) (by omega))
      have quoted : stringChars k = '"' :: (k.toList.flatMap escapeChar ++ ['"']) := rfl
      rw [write, Spacing.colon]
      simp only [List.cons_append, List.append_assoc, quoted] at refused ⊢
      rw [Reader.value_fields (by decide) (by decide) l.opened_blank]
      exact refused.map _
theorem items_deep (l : Spacing) : ∀ (xs : List Json) (fuel depth : Nat) (x : Json) (rest : List Char),
    TidyItems xs → IntegralItems xs → depth < depthItems xs → 2 * (writeItems l stringChars xs).length ≤ fuel →
    Reader.Refused (Reader.itemsBehind fuel depth x (writeItems l stringChars xs ++ rest))
  | [], _, _, _, _, _, _, deep, _ => (Nat.not_lt_zero _ deep).elim
  | y :: ys, fuel, depth, x, rest, tidy, integral, deep, enough => by
    simp only [depthItems] at deep
    simp only [writeItems, Spacing.comma, List.length_cons, List.length_append] at enough
    obtain ⟨f, rfl⟩ : ∃ f, fuel = f + 2 := ⟨fuel - 2, by omega⟩
    have refused : Reader.Refused (Reader.items (f + 2) depth
        (l.afterComma ++ (write l stringChars y ++ (writeItems l stringChars ys ++ rest)))) :=
      Reader.items_stopped l.afterComma l.afterComma_blank tidy.1 integral.1 (by omega)
        (fun deeper => value_deep l y f depth _ tidy.1 integral.1 deeper (by omega))
        (fun shallow => items_deep l ys (f + 1) depth y rest tidy.2 integral.2 (by omega) (by omega))
    rw [writeItems, Spacing.comma, List.append_assoc, List.append_assoc, List.append_assoc]
    exact Reader.itemsBehind_refused l.beforeComma_blank refused
theorem fields_deep (l : Spacing) : ∀ (fs : List (String × Json)) (fuel depth : Nat) (k : String) (v : Json)
    (rest : List Char), TidyFields fs → IntegralFields fs → depth < depthFields fs →
    2 * (writeFields l stringChars fs).length ≤ fuel →
    Reader.Refused (Reader.fieldsBehind fuel depth k v (writeFields l stringChars fs ++ rest))
  | [], _, _, _, _, _, _, _, deep, _ => (Nat.not_lt_zero _ deep).elim
  | (k', w) :: fs, fuel, depth, k, v, rest, tidy, integral, deep, enough => by
    simp only [depthFields] at deep
    simp only [writeFields, stringChars, Spacing.comma, Spacing.colon, List.length_cons, List.length_append] at enough
    obtain ⟨f, rfl⟩ : ∃ f, fuel = f + 2 := ⟨fuel - 2, by omega⟩
    have refused : Reader.Refused (Reader.fields (f + 2) depth (l.afterComma ++ (stringChars k' ++ (l.beforeColon ++
        ':' :: (l.afterColon ++ (write l stringChars w ++ (writeFields l stringChars fs ++ rest))))))) := by
      rw [Reader.fields_blanks l.afterComma_blank]
      exact Reader.fields_stopped tidy.1 integral.1 (by omega)
        (fun deeper => value_deep l w f depth _ tidy.1 integral.1 deeper (by omega))
        (fun shallow => fields_deep l fs (f + 1) depth k' w rest tidy.2 integral.2 (by omega) (by omega))
    rw [writeFields, Spacing.comma, Spacing.colon]
    simp only [List.append_assoc, List.cons_append] at refused ⊢
    exact Reader.fieldsBehind_refused l.beforeComma_blank refused
end

/-! ## Whole texts -/

section
variable {α : Type} {item : Nat → Nat → List Char → Except Reader.Stop (α × List Char)} {g : α → Json}

theorem Reader.whole_of (same : ReadsAs item g) (cs : List Char) : (whole item cs).map g = whole value cs := by
  rw [whole, whole, ← same]
  cases item (2 * cs.length + 2) maxDepth cs with
  | error e => rfl
  | ok p =>
    simp only [bind, Except.bind, Except.map]
    cases (skip p.2).isEmpty <;> rfl

/-- A text is read exactly if a value is read from it. -/
theorem read_of (same : Reader.ReadsAs item g) (s : String) : (read item s).map g = parse s := by
  rw [parse, read, read, ← Reader.whole_of same]
  cases Reader.whole item s.toList <;> rfl

theorem read_write {l : Spacing} {v : Json} {a : α} (back : Reader.ReadsBack l item Reader.maxDepth v a) :
    read item (.ofList (write l stringChars v)) = .ok a := by
  have first := back (2 * (write l stringChars v).length + 1) [] [] (by simp) (by omega) (by rintro _ ⟨⟩)
  rw [List.nil_append, List.append_nil] at first
  rw [read, String.toList_ofList, Reader.whole, first]
  rfl

end

theorem integral_of_mem : ∀ {fs : Fields} {k : String} {v : Json}, IntegralFields fs → (k, v) ∈ fs → v.Integral
  | (k', w) :: rest, k, v, integral, member => by
    obtain ⟨first, others⟩ := integral
    rcases List.mem_cons.mp member with same | later
    · cases same
      exact first
    · exact integral_of_mem others later

/-- An object of objects. -/
def nested (es : List (String × Fields)) : Json := .obj (es.map fun e => (e.1, .obj e.2))

/-- The record that is read where an object is written. -/
def asRecord : Json → Record Json
  | .obj fs => .fields fs
  | v => .other v

section
variable {es : List (String × Fields)}

/-- An object of objects is read back field by field. -/
theorem readNested_write (l : Spacing) (readable : (nested es).Readable) :
    readNested (.ofList (write l stringChars (nested es))) = .ok (.fields (es.map fun e => (e.1, .fields e.2))) := by
  obtain ⟨⟨-, tidy⟩, integral, shallow⟩ := readable
  have each : ∀ x ∈ es.map (fun e => (e.1, Json.obj e.2)),
      Reader.ReadsBack l (Reader.record Reader.value) 126 x.2 (asRecord x.2) := by
    intro x member
    obtain ⟨⟨k, fs⟩, -, rfl⟩ := List.mem_map.mp member
    have below : Json.depth (.obj fs) < (nested es).depth := Part.depth_lt (.field member)
    have values : ∀ x ∈ fs, Reader.ReadsBack l Reader.value 125 x.2 (id x.2) := by
      rintro ⟨name, v⟩ inside
      have deeper : v.depth < Json.depth (.obj fs) := Part.depth_lt (.field inside)
      refine Reader.readsBack_value l (tidy_of_mem (tidy_of_mem tidy member).2 inside)
        (integral_of_mem (integral_of_mem (v := .obj fs) integral member) inside) ?_
      change v.depth ≤ 125
      rw [Reader.maxDepth] at shallow
      omega
    have back := Reader.readsBack_record l values
    simpa [asRecord] using back
  have back := Reader.readsBack_record l each
  rw [List.map_map] at back
  exact read_write back

/-- What is nested too deep is not read. -/
theorem readNested_deep (l : Spacing) (tidy : (nested es).Tidy) (integral : (nested es).Integral)
    (deep : Reader.maxDepth < (nested es).depth) :
    ∃ e, readNested (.ofList (write l stringChars (nested es))) = .error e := by
  have refused : ∃ e, parse (.ofList (write l stringChars (nested es))) = .error e := by
    obtain ⟨e, first⟩ := value_deep l (nested es) (2 * (write l stringChars (nested es)).length + 1) Reader.maxDepth []
      tidy integral deep (by omega)
    rw [List.append_nil] at first
    rw [parse, read, String.toList_ofList, Reader.whole, first]
    exact ⟨_, rfl⟩
  have same := read_of (Reader.readsAs_record (Reader.readsAs_record Reader.readsAs_value))
    (.ofList (write l stringChars (nested es)))
  obtain ⟨e, parsed⟩ := refused
  rw [parsed] at same
  cases nothing : readNested (.ofList (write l stringChars (nested es))) with
  | error e => exact ⟨e, rfl⟩
  | ok r =>
    rw [readNested] at nothing
    rw [nothing] at same
    cases same

end

end PageSpec.Json
