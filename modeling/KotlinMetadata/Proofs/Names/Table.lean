import KotlinMetadata.Names.StringTable
import KotlinMetadata.Proofs.Tree.RoundTrip

/-!
# String tables from their bytes

A string table is a message without names of its own, so it is read back
whatever else the payload holds.  A table that has no fields but the known ones
comes back as it was.
-/

namespace KotlinMetadata

open Wire

namespace Tree

/-- A packed list of integers. -/
abbrev Integers := Tree (.slot (.repeated true) (.leaf .int32))

/-- The records of a string table. -/
abbrev Records := Tree (.slot (.repeated false) (.message .nameRecord))

theorem getOption_leafOption {scalar : Leaf} (value : Option scalar.Value) :
    (leafOption scalar value).getOption = value := by
  cases value <;> rfl

theorem map_get_getList_leafList {scalar : Leaf} {packed : Bool} (values : List scalar.Value) :
    (leafList scalar values : Tree (.slot (.repeated packed) (.leaf scalar))).getList.map get =
      values := by
  rw [getList, leafList, values_ofList, List.map_map]
  exact List.map_id' values

end Tree

@[simp]
theorem NameOperation.ofCode_code (operation : NameOperation) :
    NameOperation.ofCode operation.code = operation := by
  cases operation <;> decide

namespace NameRecord

open KotlinMetadata.Tree

/-- A record is read from its message as it was. -/
@[simp]
theorem ofMessage_toMessage (record : NameRecord) : ofMessage record.toMessage = record := by
  rcases record with ⟨range, predefined, text, operation, substring, replacement, unknown⟩
  have operation_eq : (leafOption .int32 (operation.map NameOperation.code)).getOption.map
      NameOperation.ofCode = operation := by
    cases operation with
    | none => rfl
    | some operation => exact congrArg some operation.ofCode_code
  have range_eq : (leafOption .int32 range).getOption = range := getOption_leafOption _
  have predefined_eq : (leafOption .int32 predefined).getOption = predefined :=
    getOption_leafOption _
  have text_eq : (leafOption .text text).getOption = text := getOption_leafOption _
  have substring_eq : (leafList .int32 substring : Integers).getList.map Tree.get = substring :=
    map_get_getList_leafList _
  have replacement_eq : (leafList .int32 replacement : Integers).getList.map Tree.get =
      replacement := map_get_getList_leafList _
  exact congr (congr (congr (congr (congr (congr (congrArg mk range_eq) predefined_eq) text_eq)
    operation_eq) substring_eq) replacement_eq) rfl

theorem names_toMessage (record : NameRecord) : record.toMessage.names = [] :=
  names_cons_eq_nil (names_of_leaf _ fun _ => rfl)
    (names_cons_eq_nil (names_of_leaf _ fun _ => rfl)
      (names_cons_eq_nil (names_of_leaf _ fun _ => rfl)
        (names_cons_eq_nil (names_of_leaf _ fun _ => rfl)
          (names_cons_eq_nil (names_of_leaf _ fun _ => rfl)
            (names_cons_eq_nil (names_of_leaf _ fun _ => rfl) rfl)))))

theorem height_toMessage_le (record : NameRecord) : record.toMessage.height ≤ 1 :=
  Nat.succ_le_succ <|
    height_cons_le (height_of_leaf_le _ 0)
      (height_cons_le (height_of_leaf_le _ 0)
        (height_cons_le (height_of_leaf_le _ 0)
          (height_cons_le (height_of_leaf_le _ 0)
            (height_cons_le (height_of_leaf_le _ 0)
              (height_cons_le (height_of_leaf_le _ 0) (Nat.le_refl 0))))))

theorem known_toMessage {record : NameRecord} (known : record.unknown = []) :
    record.toMessage.Known :=
  ⟨⟨known_of_leaf _, known_of_leaf _, known_of_leaf _, known_of_leaf _, known_of_leaf _,
    known_of_leaf _, trivial⟩, known⟩

end NameRecord

namespace StringTable

open KotlinMetadata.Tree

/-- A table is read from its message as it was. -/
@[simp]
theorem ofMessage_toMessage (table : StringTable) : ofMessage table.toMessage = table := by
  rcases table with ⟨records, localNames, unknown⟩
  have records_eq : (ofList (records.map NameRecord.toMessage) : Records).getList.map
      NameRecord.ofMessage = records := by
    rw [getList, values_ofList, List.map_map,
      List.map_congr_left fun record _ => record.ofMessage_toMessage, List.map_id']
  have localNames_eq : (leafList .int32 localNames : Integers).getList.map Tree.get =
      localNames := map_get_getList_leafList _
  exact congr (congr (congrArg mk records_eq) localNames_eq) rfl

variable (table : StringTable)

/-- What holds of the messages of all records holds of the values of the field of records. -/
theorem forall_mem_held_records {motive : Message .nameRecord → Prop}
    (onRecords : ∀ record ∈ table.records, motive record.toMessage) :
    ∀ message ∈ (ofList (table.records.map NameRecord.toMessage) : Records).held,
      motive message := by
  rw [held_ofList]
  intro message mem
  rcases List.mem_map.mp mem with ⟨record, recordMem, rfl⟩
  exact onRecords record recordMem

theorem names_toMessage : table.toMessage.names = [] := by
  refine names_cons_eq_nil ?_ (names_cons_eq_nil (names_of_leaf _ fun _ => rfl) rfl)
  exact (names_slot _).trans (List.flatMap_eq_nil_iff.mpr
    (table.forall_mem_held_records fun record _ => record.names_toMessage))

theorem height_toMessage_le : table.toMessage.height ≤ nestingLimit + 1 := by
  refine Nat.succ_le_succ (height_cons_le ?_ (height_cons_le (height_of_leaf_le _ _) ?_))
  · exact height_slot_le_iff.mpr (table.forall_mem_held_records fun record _ =>
      Nat.le_trans record.height_toMessage_le (by decide))
  · exact Nat.zero_le _

variable {table}

theorem known_toMessage (known : table.unknown = [])
    (recordsKnown : ∀ record ∈ table.records, record.unknown = []) : table.toMessage.Known := by
  refine ⟨⟨known_slot_iff.mpr ?_, known_of_leaf _, trivial⟩, known⟩
  exact table.forall_mem_held_records fun record mem =>
    NameRecord.known_toMessage (recordsKnown record mem)

/-- A table is read back from its bytes, its unknown fields by number. -/
theorem decode_encode (wellFormed : table.toMessage.WellFormed)
    (short : table.encode.length < UInt64.size) :
    decode table.encode = .ok (.ofMessage table.toMessage.sortUnknown) := by
  have resolves : Resolves (fun _ index => .error (.indexOutOfRange index)) (fun _ => 0)
      table.toMessage := by
    intro name mem
    rw [names_toMessage] at mem
    cases mem
  exact map_eq_ok_iff.mpr
    ⟨_, Tree.decode_encode wellFormed resolves table.height_toMessage_le short, rfl⟩

/-- A table without unknown fields is read back from its bytes as it was. -/
theorem decode_encode_of_known (known : table.toMessage.Known)
    (short : table.encode.length < UInt64.size) : decode table.encode = .ok table := by
  rw [decode_encode known.wellFormed short, known.sortUnknown, ofMessage_toMessage]

end StringTable

end KotlinMetadata
