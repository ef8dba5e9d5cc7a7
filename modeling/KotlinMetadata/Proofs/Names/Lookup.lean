import KotlinMetadata.Names.Resolver
import KotlinMetadata.Proofs.Names.Resolution
import KotlinMetadata.Proofs.Names.Runs
import KotlinMetadata.Proofs.Names.Table

/-!
# Names by their numbers

A numbering gives each of its names a string and a record, and looking a number
up undoes what the record says.  So as long as no number overflows, every name
is found again under its own number.
-/

namespace KotlinMetadata

open Wire

/-- A character that does not occur can stand in for another one. -/
theorem replaceChar_replaceChar {a b : Char} {chars : List Char} (absent : b ∉ chars) :
    replaceChar b a (replaceChar a b chars) = chars := by
  rw [replaceChar, replaceChar, List.map_map]
  refine (List.map_congr_left fun c mem => ?_).trans (List.map_id' chars)
  have other : c ≠ b := fun same => absent (same ▸ mem)
  rw [Function.comp_apply]
  by_cases same : c = a
  · rw [if_pos same, if_pos rfl, same]
  · rw [if_neg same, if_neg other]

/-- A class name is its local mark, if it has one, and the rest. -/
theorem splitLocal_eq (chars : List Char) :
    chars = if (splitLocal chars).1 then localMarker :: (splitLocal chars).2
      else (splitLocal chars).2 := by
  unfold splitLocal
  split <;> simp [localMarker]

namespace TableName

/-- The text under a name's number: a class name without its local mark. -/
def bare : TableName → String
  | plain text => text
  | className name => String.ofList (splitLocal name.toList).2

/-- A name is stored as it is, by its position among the known ones, or as a descriptor. -/
theorem stored_cases (name : TableName) :
    name.stored = (name.bare, {}) ∨
      (∃ position, name.stored = ("", { predefined := some (Int32.ofNat position) }) ∧
        predefinedNames[position]? = some name.bare) ∨
      ('$' ∉ name.bare.toList ∧ name.stored =
        (String.ofList ('L' :: replaceChar '.' '$' name.bare.toList ++ [';']),
          { operation := some .descriptorToClass })) := by
  cases name with
  | plain text => exact .inl rfl
  | className name =>
      simp only [stored, bare, String.toList_ofList]
      split
      · rename_i position found _
        rcases List.idxOf?_eq_some_iff.mp found with ⟨inBounds, same, _⟩
        exact .inr (.inl ⟨position, rfl, List.getElem?_eq_some_iff.mpr ⟨inBounds, same⟩⟩)
      · split
        · exact .inl rfl
        · rename_i plain
          exact .inr (.inr ⟨plain, rfl⟩)

theorem range_stored (name : TableName) : name.stored.2.range = none := by
  rcases name.stored_cases with eq | ⟨_, eq, _⟩ | ⟨_, eq⟩ <;> rw [eq]

theorem unknown_stored (name : TableName) : name.stored.2.unknown = [] := by
  rcases name.stored_cases with eq | ⟨_, eq, _⟩ | ⟨_, eq⟩ <;> rw [eq]

/-- What a name is stored as cuts nothing out and replaces nothing. -/
theorem whole_stored (name : TableName) :
    name.stored.2.substring = [] ∧ name.stored.2.replacement = [] := by
  rcases name.stored_cases with eq | ⟨_, eq, _⟩ | ⟨_, eq⟩ <;> rw [eq] <;> exact ⟨rfl, rfl⟩

theorem lt_of_predefinedNames {position : Nat} {name : String}
    (found : predefinedNames[position]? = some name) : position < 44 :=
  (List.getElem?_eq_some_iff.mp found).1

/-- The record that a name is stored with restores its text. -/
theorem restored (name : TableName) :
    ∃ base, name.stored.2.baseText (some name.stored.1) = some base ∧
      String.ofList ((name.stored.2.operation.getD .none).apply base.toList) = name.bare := by
  rcases name.stored_cases with eq | ⟨position, eq, found⟩ | ⟨plain, eq⟩ <;> rw [eq]
  · exact ⟨name.bare, rfl, String.ofList_toList⟩
  · refine ⟨name.bare, ?_, String.ofList_toList⟩
    have small := lt_of_predefinedNames found
    have position_eq : (Int32.ofNat position).toInt = position :=
      Int32.toInt_ofNat_of_lt (Nat.lt_trans small (by decide))
    have notNegative : ¬ Int32.ofNat position < 0 := by
      rw [Int32.lt_iff_toInt_lt, position_eq]
      simp
    simp only [NameRecord.baseText, NameRecord.predefinedName, Option.bind_some, notNegative,
      if_false, position_eq, Int.toNat_natCast, found]
    rfl
  · refine ⟨_, rfl, ?_⟩
    simp [NameOperation.apply, replaceChar_replaceChar plain]

end TableName

/-- A number within bounds selects what its record makes of its string. -/
theorem Resolver.text_of_shape {names : Resolver} {position : Nat} (small : position < 2147483648)
    {record stored : NameRecord} (found : names.records[position]? = some record)
    (alike : record.shape = stored) (whole : stored.substring = [] ∧ stored.replacement = [])
    {base : String} (base_eq : stored.baseText names.strings[position]? = some base) :
    names.text (Int32.ofNat position) =
      .ok (String.ofList ((stored.operation.getD .none).apply base.toList)) := by
  subst alike
  have position_eq : (Int32.ofNat position).toInt = position := Int32.toInt_ofNat_of_lt small
  have notNegative : ¬ Int32.ofNat position < 0 := by
    rw [Int32.lt_iff_toInt_lt, position_eq]
    simp
  have base_eq : record.baseText names.strings[position]? = some base := base_eq
  have cut : record.cut base.toList = .ok base.toList := by
    rw [NameRecord.cut, show record.substring = [] from whole.1]
  have replaced : record.replaced base.toList = base.toList := by
    rw [NameRecord.replaced, show record.replacement = [] from whole.2]
  simp only [text, notNegative, if_false, position_eq, Int.toNat_natCast, found, base_eq, cut,
    replaced]
  rfl

/-! ## Without strings -/

theorem StringTable.text_resolver_nil (table : StringTable) (index : Int32) :
    (table.resolver []).text index = .error (.indexOutOfRange index) := by
  rw [text_resolver_eq_outOfRange_iff, Int32.lt_iff_toInt_lt, Int32.toInt_zero, List.length_nil]
  omega

/-- Where there are no strings, no name is found. -/
theorem StringTable.lookup_resolver_nil (table : StringTable) (role : Role) (index : Int32) :
    (table.resolver []).lookup role index = .error (.indexOutOfRange index) := by
  have text := table.text_resolver_nil index
  cases role with
  | className =>
      rw [Resolver.lookup, Resolver.className, text]
      rfl
  | _ => exact text

/-! ## Numberings -/

namespace Numbering

theorem mem_names_ofList {names : List TableName} {name : TableName} :
    name ∈ (ofList names).names ↔ name ∈ names :=
  List.mem_eraseDups

section

variable (numbering : Numbering)

theorem unknown_of_mem_records {run : NameRecord} (mem : run ∈ numbering.table.records) :
    run.unknown = [] := by
  obtain ⟨record, recordMem, alike⟩ := exists_shape_of_mem_groupRecords mem
  rcases List.mem_map.mp recordMem with ⟨name, _, rfl⟩
  exact (congrArg NameRecord.unknown alike).symm.trans name.unknown_stored

theorem known_table : numbering.table.toMessage.Known :=
  StringTable.known_toMessage rfl fun _ mem => numbering.unknown_of_mem_records mem

/-- The table of a numbering is read back from its bytes. -/
theorem decode_encode_table (short : numbering.table.encode.length < UInt64.size) :
    StringTable.decode numbering.table.encode = .ok numbering.table :=
  StringTable.decode_encode_of_known numbering.known_table short

end

variable {numbering : Numbering} {name : TableName}

theorem getElem?_idxOf (mem : name ∈ numbering.names) :
    numbering.names[numbering.names.idxOf name]? = some name := by
  rw [List.getElem?_eq_getElem (List.idxOf_lt_length_of_mem mem), List.getElem_idxOf]

theorem getElem?_strings (mem : name ∈ numbering.names) :
    numbering.resolver.strings[numbering.names.idxOf name]? = some name.stored.1 := by
  change numbering.strings.toArray[_]? = _
  rw [List.getElem?_toArray, strings, List.getElem?_map, getElem?_idxOf mem, Option.map_some]

/-- The record of a name is alike the one that it was stored with. -/
theorem exists_getElem?_records (few : numbering.names.length < 2147483648)
    (mem : name ∈ numbering.names) :
    ∃ record, numbering.resolver.records[numbering.names.idxOf name]? = some record ∧
      record.shape = name.stored.2 := by
  let stored := numbering.names.map fun name => name.stored.2
  have alone : ∀ record ∈ stored, record.range = none :=
    List.forall_mem_map.mpr fun name _ => name.range_stored
  have restored := map_shape_expandRecords_groupRecords alone (by simpa [stored] using few)
  have lengths : numbering.strings.length = stored.length := by simp [strings, stored]
  change ∃ record, (expandRecords numbering.strings.length (groupRecords stored)).toArray[_]? =
    some record ∧ _
  have found : stored[numbering.names.idxOf name]? = some name.stored.2 := by
    rw [List.getElem?_map, getElem?_idxOf mem, Option.map_some]
  rw [lengths, List.getElem?_toArray]
  rw [← restored, List.getElem?_map] at found
  exact Option.map_eq_some_iff.mp found

/-- The text under a name's number. -/
theorem text_index (few : numbering.names.length < 2147483648) (mem : name ∈ numbering.names) :
    numbering.resolver.text (numbering.index name) = .ok name.bare := by
  obtain ⟨record, found, alike⟩ := exists_getElem?_records few mem
  rcases name.restored with ⟨base, base_eq, bare_eq⟩
  have small : numbering.names.idxOf name < 2147483648 :=
    Nat.lt_trans (List.idxOf_lt_length_of_mem mem) few
  rw [← getElem?_strings mem] at base_eq
  rw [index, Resolver.text_of_shape small found alike name.whole_stored base_eq, bare_eq]

/-- Numbers of positions that do not overflow differ as the positions do. -/
theorem ofNat_inj {a b : Nat} (ha : a < 2147483648) (hb : b < 2147483648)
    (same : Int32.ofNat a = Int32.ofNat b) : a = b := by
  have ints := congrArg Int32.toInt same
  rw [Int32.toInt_ofNat_of_lt ha, Int32.toInt_ofNat_of_lt hb] at ints
  exact Int.ofNat_inj.mp ints

/-- The numbers of local classes are those of names with the mark. -/
theorem mem_localNames_iff (few : numbering.names.length < 2147483648) {name : String}
    (mem : .className name ∈ numbering.names) :
    numbering.index (.className name) ∈ numbering.localNames ↔ isLocalName name = true := by
  simp only [localNames, List.mem_filterMap, Prod.exists, List.mem_zipIdx_iff_getElem?]
  constructor
  · rintro ⟨other, position, found, listed⟩
    have inBounds := (List.getElem?_eq_some_iff.mp found).1
    cases other with
    | plain _ => cases listed
    | className other =>
        simp only [Option.ite_none_right_eq_some, Option.some.injEq] at listed
        rcases listed with ⟨isLocal, sameNumber⟩
        have samePosition : position = numbering.names.idxOf (.className name) :=
          ofNat_inj (Nat.lt_trans inBounds few)
            (Nat.lt_trans (List.idxOf_lt_length_of_mem mem) few) sameNumber
        rw [samePosition, getElem?_idxOf mem] at found
        cases found
        exact isLocal
  · intro isLocal
    exact ⟨_, _, getElem?_idxOf mem, if_pos isLocal⟩

/-- The class name under its number. -/
theorem className_index (few : numbering.names.length < 2147483648) {name : String}
    (mem : .className name ∈ numbering.names) :
    numbering.resolver.className (numbering.index (.className name)) = .ok name := by
  have contains : numbering.resolver.localNames.contains (numbering.index (.className name)) =
      (splitLocal name.toList).1 := by
    rw [Bool.eq_iff_iff, List.contains_iff_mem]
    exact mem_localNames_iff few mem
  have whole : name = String.ofList (if (splitLocal name.toList).1 then
      localMarker :: (splitLocal name.toList).2 else (splitLocal name.toList).2) := by
    rw [← splitLocal_eq, String.ofList_toList]
  rw [Resolver.className, text_index few mem, contains]
  refine congrArg Except.ok (Eq.trans ?_ whole.symm)
  split
  · rw [String.ofList_cons]
    rfl
  · rfl

/-- A name is found under the number of what the string table makes of it. -/
theorem lookup_index (few : numbering.names.length < 2147483648) {role : Role} {text : String}
    (mem : role.tableName text ∈ numbering.names) :
    numbering.resolver.lookup role (numbering.index (role.tableName text)) = .ok text := by
  cases role with
  | className => exact className_index few mem
  | _ => exact text_index few mem

end Numbering

end KotlinMetadata
