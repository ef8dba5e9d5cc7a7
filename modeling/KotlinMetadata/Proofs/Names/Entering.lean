import KotlinMetadata.Proofs.Names.Lookup
import KotlinMetadata.Proofs.Tree.Length

/-!
# Names entered one after another

A name that is entered gets its number at once: the number that it has already,
or the next one.  Entering another name adds at most one string, at the end,
and widens the last record or adds one behind it, so a number that was handed
out keeps its meaning.  In the end every number gives back the name that it was
handed out for, however the table travels.
-/

namespace KotlinMetadata

open Wire

/-- Whether a number is understood as a given name. -/
def Resolver.Finds (names : Resolver) : TableName → Int32 → Prop
  | .plain text, index => names.text index = .ok text
  | .className name, index => names.className index = .ok name

/-! ## Runs that grow at either end -/

namespace NameRecord

/-- A record that covers one more entry. -/
def widened (record : NameRecord) : NameRecord :=
  { record with range := some (record.range.getD 1 + 1) }

@[simp]
theorem sameShape_widened (record other : NameRecord) :
    record.widened.sameShape other = record.sameShape other :=
  rfl

theorem widened_congr {a b : NameRecord} (alone : a.range = none) (alone' : b.range = none)
    (alike : a.shape = b.shape) : a.widened = b.widened := by
  rw [← shape_of_range alone, ← shape_of_range alone', alike]

end NameRecord

/-- Runs with one more entry in front of them. -/
def prependRecord (record : NameRecord) : List NameRecord → List NameRecord
  | [] => [record]
  | next :: others =>
      if next.sameShape record then next.widened :: others else record :: next :: others

/-- Runs with one more entry behind them. -/
def appendRecord (record : NameRecord) : List NameRecord → List NameRecord
  | [] => [record]
  | [last] => if last.sameShape record then [last.widened] else [last, record]
  | first :: second :: others => first :: appendRecord record (second :: others)

theorem groupRecords_cons (record : NameRecord) (rest : List NameRecord) :
    groupRecords (record :: rest) = prependRecord record (groupRecords rest) := by
  rw [groupRecords]
  cases groupRecords rest <;> rfl

/-- It does not matter at which end a run grows first. -/
theorem prependRecord_appendRecord {first last : NameRecord} (alone : first.range = none)
    (alone' : last.range = none) (runs : List NameRecord) :
    prependRecord first (appendRecord last runs) =
      appendRecord last (prependRecord first runs) := by
  -- Only runs that are both first and last can grow at both ends.
  match runs with
  | [] =>
      simp only [appendRecord, prependRecord, NameRecord.sameShape_iff]
      by_cases alike : last.shape = first.shape
      · rw [if_pos alike, if_pos alike.symm, NameRecord.widened_congr alone' alone alike]
      · rw [if_neg alike, if_neg (Ne.symm alike)]
  | [run] =>
      cases head : run.sameShape first <;> cases tail : run.sameShape last <;>
        simp [prependRecord, appendRecord, head, tail]
  | run :: second :: others =>
      simp only [appendRecord, prependRecord]
      split <;> rfl

/-- One more entry at the end widens the last run or adds one. -/
theorem groupRecords_append_singleton {records : List NameRecord} {record : NameRecord}
    (alone : ∀ record ∈ records, record.range = none) (alone' : record.range = none) :
    groupRecords (records ++ [record]) = appendRecord record (groupRecords records) := by
  induction records with
  | nil => rfl
  | cons first rest ih =>
      rcases List.forall_mem_cons.mp alone with ⟨firstAlone, restAlone⟩
      rw [List.cons_append, groupRecords_cons, groupRecords_cons, ih restAlone,
        prependRecord_appendRecord firstAlone alone']

theorem length_groupRecords_le (records : List NameRecord) :
    (groupRecords records).length ≤ records.length := by
  induction records with
  | nil => exact Nat.le_refl 0
  | cons record rest ih =>
      rw [groupRecords_cons, List.length_cons]
      cases grouped : groupRecords rest with
      | nil => exact Nat.succ_le_succ (Nat.zero_le _)
      | cons next others =>
          rw [grouped, List.length_cons] at ih
          rw [prependRecord]
          split <;> simp only [List.length_cons] <;> omega

namespace TableName

/-- Whether a name is that of a local class. -/
def isLocal : TableName → Bool
  | plain _ => false
  | className name => isLocalName name

/-- No text stands in the record of a name. -/
theorem text_stored (name : TableName) : name.stored.2.text = none := by
  rcases name.stored_cases with eq | ⟨_, eq, _⟩ | ⟨_, eq⟩ <;> rw [eq]

end TableName

/-! ## The length of a table -/

namespace Tree

theorem leafWeight_int32_le (value : Leaf.Value .int32) : leafWeight .int32 value ≤ 10 :=
  Nat.le_refl 10

theorem weight_leafOption_le {scalar : Leaf} (light : ∀ value, leafWeight scalar value ≤ 10)
    (value : Option scalar.Value) : (leafOption scalar value).weight ≤ 30 := by
  cases value with
  | none => exact Nat.zero_le 30
  | some value => exact Nat.add_le_add_left (light value) 20

/-- A list is as heavy as its values and their tags. -/
theorem weight_ofList_le {packed : Bool} {type : ValueType} {bound : Nat}
    {values : List (Tree (.value type))} (light : ∀ value ∈ values, value.weight ≤ bound) :
    (ofList values : Tree (.slot (.repeated packed) type)).weight ≤
      (20 + bound) * values.length := by
  induction values with
  | nil => exact Nat.zero_le _
  | cons value rest ih =>
      rcases List.forall_mem_cons.mp light with ⟨first, others⟩
      have rest_le := ih others
      rw [ofList, weight, List.length_cons, Nat.mul_succ]
      omega

theorem weight_leafList_le {packed : Bool} {scalar : Leaf}
    (light : ∀ value, leafWeight scalar value ≤ 10) (values : List scalar.Value) :
    (leafList scalar values : Tree (.slot (.repeated packed) (.leaf scalar))).weight ≤
      30 * values.length := by
  have each : ∀ value ∈ values.map (leaf scalar), value.weight ≤ 10 :=
    List.forall_mem_map.mpr fun value _ => light value
  rw [← List.length_map (leaf scalar)]
  exact weight_ofList_le each

end Tree

/-- A record that cuts nothing out, replaces nothing and holds no text is short. -/
theorem NameRecord.weight_toMessage_le {record : NameRecord}
    (whole : record.substring = [] ∧ record.replacement = []) (text : record.text = none)
    (known : record.unknown = []) : record.toMessage.weight ≤ 90 := by
  have range := Tree.weight_leafOption_le Tree.leafWeight_int32_le record.range
  have predefined := Tree.weight_leafOption_le Tree.leafWeight_int32_le record.predefined
  have operation := Tree.weight_leafOption_le Tree.leafWeight_int32_le
    (record.operation.map NameOperation.code)
  have weight_eq : record.toMessage.weight =
      (Tree.leafOption .int32 record.range).weight +
        ((Tree.leafOption .int32 record.predefined).weight +
          ((Tree.leafOption .int32 (record.operation.map NameOperation.code)).weight + 0)) := by
    rcases record with ⟨_, _, _, _, _, _, _⟩
    rcases whole with ⟨rfl, rfl⟩
    cases text
    cases known
    rfl
  omega

namespace Numbering

variable (numbering : Numbering)

theorem length_records_table_le : numbering.table.records.length ≤ numbering.names.length := by
  simpa [table] using length_groupRecords_le (numbering.names.map fun name => name.stored.2)

theorem length_localNames_le : numbering.localNames.length ≤ numbering.names.length := by
  rw [localNames]
  exact Nat.le_trans (List.length_filterMap_le _ _) (Nat.le_of_eq List.length_zipIdx)

/-- Every record of the table is short. -/
theorem weight_le_of_mem_records {record : NameRecord} (mem : record ∈ numbering.table.records) :
    record.toMessage.weight ≤ 90 := by
  obtain ⟨entry, entryMem, alike⟩ := exists_shape_of_mem_groupRecords mem
  rcases List.mem_map.mp entryMem with ⟨name, _, rfl⟩
  have whole := name.whole_stored
  exact NameRecord.weight_toMessage_le
    ⟨(congrArg NameRecord.substring alike).symm.trans whole.1,
      (congrArg NameRecord.replacement alike).symm.trans whole.2⟩
    ((congrArg NameRecord.text alike).symm.trans name.text_stored)
    ((congrArg NameRecord.unknown alike).symm.trans name.unknown_stored)

/-- The table says how strings are understood and not what they are, so their number bounds its
length. -/
theorem length_encode_table_le : numbering.table.encode.length ≤ 140 * numbering.names.length := by
  have few := numbering.length_records_table_le
  have few' := numbering.length_localNames_le
  have records : (Tree.ofList (numbering.table.records.map NameRecord.toMessage) :
      Tree.Records).weight ≤ (20 + 90) * numbering.table.records.length := by
    rw [← List.length_map NameRecord.toMessage]
    exact Tree.weight_ofList_le
      (List.forall_mem_map.mpr fun record mem => numbering.weight_le_of_mem_records mem)
  have localNames : (Tree.leafList .int32 numbering.localNames : Tree.Integers).weight ≤
      30 * numbering.localNames.length :=
    Tree.weight_leafList_le Tree.leafWeight_int32_le _
  calc
    numbering.table.encode.length ≤ numbering.table.toMessage.weight := Tree.length_encode_le _ _
    _ = (Tree.ofList (numbering.table.records.map NameRecord.toMessage) : Tree.Records).weight +
          (Tree.leafList .int32 numbering.localNames : Tree.Integers).weight := rfl
    _ ≤ 140 * numbering.names.length := by omega

/-- With a number for every name there is a length for the table. -/
theorem short_table_of_few (few : numbering.names.length < 2147483648) :
    numbering.table.encode.length < UInt64.size := by
  have short := numbering.length_encode_table_le
  have size : UInt64.size = 18446744073709551616 := rfl
  omega

/-- A table with a number for every name is read back from its bytes. -/
theorem decode_encode_table_of_few (few : numbering.names.length < 2147483648) :
    StringTable.decode numbering.table.encode = .ok numbering.table :=
  numbering.decode_encode_table (numbering.short_table_of_few few)

/-- Every name is found under its number. -/
theorem finds_index {numbering : Numbering} (few : numbering.names.length < 2147483648)
    {name : TableName} (mem : name ∈ numbering.names) :
    numbering.resolver.Finds name (numbering.index name) := by
  cases name with
  | plain text => exact text_index few mem
  | className name => exact className_index few mem

/-! ## Entering names -/

theorem enter_of_mem {name : TableName} (known : name ∈ numbering.names) :
    numbering.enter name = numbering :=
  if_pos known

theorem enter_of_not_mem {name : TableName} (new : name ∉ numbering.names) :
    numbering.enter name = ⟨numbering.names ++ [name]⟩ :=
  if_neg new

theorem mem_names_enter {name other : TableName} :
    other ∈ (numbering.enter name).names ↔ other ∈ numbering.names ∨ other = name := by
  by_cases known : name ∈ numbering.names
  · rw [numbering.enter_of_mem known]
    exact ⟨.inl, fun mem => mem.elim id fun same => same ▸ known⟩
  · rw [numbering.enter_of_not_mem known, List.mem_append, List.mem_singleton]

/-- Entering a name changes no number that was handed out. -/
theorem index_enter {name other : TableName} (mem : other ∈ numbering.names) :
    (numbering.enter name).index other = numbering.index other := by
  by_cases known : name ∈ numbering.names
  · rw [numbering.enter_of_mem known]
  · rw [numbering.enter_of_not_mem known, index, index, List.idxOf_append_of_mem mem]

/-- Entering a name adds at most one string, behind the others. -/
theorem strings_enter (name : TableName) :
    (numbering.enter name).strings =
      numbering.strings ++ if name ∈ numbering.names then [] else [name.stored.1] := by
  by_cases known : name ∈ numbering.names
  · rw [numbering.enter_of_mem known, if_pos known, List.append_nil]
  · rw [numbering.enter_of_not_mem known, if_neg known, strings, List.map_append]
    rfl

/-- Entering a name widens the last record or adds one behind it, and marks the new number if the
name is that of a local class. -/
theorem table_enter (name : TableName) (new : name ∉ numbering.names) :
    (numbering.enter name).table =
      { records := appendRecord name.stored.2 numbering.table.records
        localNames := numbering.table.localNames ++
          if name.isLocal then [Int32.ofNat numbering.names.length] else [] } := by
  have alone : ∀ record ∈ numbering.names.map fun name => name.stored.2, record.range = none :=
    List.forall_mem_map.mpr fun name _ => name.range_stored
  rw [numbering.enter_of_not_mem new, table, table, localNames, localNames, List.map_append,
    List.map_singleton, groupRecords_append_singleton alone name.range_stored, List.zipIdx_append,
    List.filterMap_append]
  congr 2
  cases name with
  | plain text => rfl
  | className text => by_cases isLocal : isLocalName text <;> simp [TableName.isLocal, isLocal]

theorem ofList_append_singleton (names : List TableName) (name : TableName) :
    ofList (names ++ [name]) = (ofList names).enter name := by
  by_cases known : name ∈ names
  · rw [enter_of_mem _ (mem_names_ofList.mpr known), ofList, ofList, List.eraseDups_append,
      List.removeAll]
    simp [known]
  · rw [enter_of_not_mem _ (mt mem_names_ofList.mp known), ofList, ofList, List.eraseDups_append,
      List.removeAll]
    simp [known, List.eraseDups_cons]

variable {numbering}

/-- Numbers that were handed out keep their names while others are entered. -/
theorem index_enterAll {calls : List TableName} {name : TableName} (mem : name ∈ numbering.names) :
    (numbering.enterAll calls).1.index name = numbering.index name := by
  induction calls generalizing numbering with
  | nil => rfl
  | cons call rest ih =>
      calc
        ((numbering.enter call).enterAll rest).1.index name
            = (numbering.enter call).index name := ih (numbering.mem_names_enter.mpr (.inl mem))
        _ = numbering.index name := numbering.index_enter mem

variable (numbering) in
/-- What is handed out are the numbers in the end. -/
theorem snd_enterAll (calls : List TableName) :
    (numbering.enterAll calls).2 = calls.map (numbering.enterAll calls).1.index := by
  induction calls generalizing numbering with
  | nil => rfl
  | cons call rest ih =>
      have known : call ∈ (numbering.enter call).names := numbering.mem_names_enter.mpr (.inr rfl)
      calc
        (numbering.enterAll (call :: rest)).2
            = (numbering.enter call).index call :: ((numbering.enter call).enterAll rest).2 := rfl
        _ = (call :: rest).map ((numbering.enter call).enterAll rest).1.index := by
          rw [ih, List.map_cons, index_enterAll known]

/-- Entering names one after another numbers them by first occurrence. -/
theorem fst_enterAll_ofList (before calls : List TableName) :
    ((ofList before).enterAll calls).1 = ofList (before ++ calls) := by
  induction calls generalizing before with
  | nil => rw [List.append_nil]; rfl
  | cons call rest ih =>
      calc
        ((ofList before).enterAll (call :: rest)).1
            = (((ofList before).enter call).enterAll rest).1 := rfl
        _ = ofList (before ++ call :: rest) := by
          rw [← ofList_append_singleton, ih, List.append_assoc, List.singleton_append]

/-- Names that are entered one after another are numbered by first occurrence.  Their table is read
back from its bytes, and with it each number that was handed out gives back its name. -/
theorem finds_enterAll {calls : List TableName} {indices : List Int32}
    (run : empty.enterAll calls = (numbering, indices))
    (few : numbering.strings.length < 2147483648) :
    numbering = ofList calls ∧
      StringTable.decode numbering.table.encode = .ok numbering.table ∧
      List.Forall₂ (numbering.table.resolver numbering.strings).Finds calls indices := by
  have final : numbering = ofList calls :=
    (congrArg Prod.fst run).symm.trans (fst_enterAll_ofList [] calls)
  have handed : indices = calls.map numbering.index := by
    have := snd_enterAll empty calls
    rwa [run] at this
  have few : numbering.names.length < 2147483648 := by rwa [strings, List.length_map] at few
  refine ⟨final, numbering.decode_encode_table_of_few few, ?_⟩
  rw [handed, List.forall₂_map_right_iff, List.forall₂_same]
  intro name mem
  exact finds_index few (final ▸ mem_names_ofList.mpr mem)

/-- A known name, the local class of that name and its plain text are three names, and a name that
is entered again gets the number that it has. -/
theorem finds_enterAll_sample :
    let calls : List TableName :=
      [ .className "kotlin/Any", .className ".kotlin/Any", .plain "kotlin/Any", .plain ""
      , .className "a/B.C$1", .className "a/B.C", .className "a/D;", .className "kotlin/Any" ]
    ∃ numbering, empty.enterAll calls = (numbering, [0, 1, 2, 3, 4, 5, 6, 0]) ∧
      StringTable.decode numbering.table.encode = .ok numbering.table ∧
      List.Forall₂ (numbering.table.resolver numbering.strings).Finds calls
        [0, 1, 2, 3, 4, 5, 6, 0] := by
  intro calls
  have run : empty.enterAll calls = (⟨calls.take 7⟩, [0, 1, 2, 3, 4, 5, 6, 0]) := rfl
  exact ⟨_, run, (finds_enterAll run (by decide)).2⟩

end Numbering

end KotlinMetadata
