import KotlinMetadata.Proofs.Names.Entering
import Mathlib.Algebra.Order.Ring.Int
import Mathlib.Data.Finset.Card
import Mathlib.Data.List.Chain

/-!
# Strings, records and numbers in step

Entering a name may add a string, widen or add a record, mark a number as that
of a local class and hand out a number, and all of these have to stay in step:
the records cover the strings and no two neighbours could share a run, the
marked numbers ascend, and no number is given to two names.  One name entered
keeps this, hence so does every sequence of names.
-/

namespace KotlinMetadata

/-! ## Runs -/

/-- Runs of so many entries in all, none of them without an entry, and no two neighbours that are
understood alike. -/
structure Covers (runs : List NameRecord) (entries : Nat) : Prop where
  positive : ∀ run ∈ runs, 0 < run.count
  total : (runs.map NameRecord.count).sum = entries
  neighbours : runs.IsChain fun run next => run.shape ≠ next.shape

theorem covers_cons_iff {run : NameRecord} {rest : List NameRecord} {entries : Nat} :
    Covers (run :: rest) entries ↔
      0 < run.count ∧ (∀ next ∈ rest.head?, run.shape ≠ next.shape) ∧
        ∃ others, run.count + others = entries ∧ Covers rest others := by
  constructor
  · rintro ⟨positive, total, neighbours⟩
    rcases List.forall_mem_cons.mp positive with ⟨here, later⟩
    rcases List.isChain_cons.mp neighbours with ⟨differs, chain⟩
    exact ⟨here, differs, _, total, later, rfl, chain⟩
  · rintro ⟨here, differs, others, rfl, later, total, chain⟩
    refine ⟨List.forall_mem_cons.mpr ⟨here, later⟩, ?_, List.isChain_cons.mpr ⟨differs, chain⟩⟩
    rw [List.map_cons, List.sum_cons, total]

theorem covers_singleton_iff {run : NameRecord} {entries : Nat} :
    Covers [run] entries ↔ 0 < run.count ∧ run.count = entries := by
  constructor
  · intro covers
    obtain ⟨pos, _, others, rfl, rest⟩ := covers_cons_iff.mp covers
    exact ⟨pos, congrArg (run.count + ·) rest.total⟩
  · rintro ⟨pos, rfl⟩
    exact covers_cons_iff.mpr ⟨pos, by simp, 0, rfl, by simp, rfl, .nil⟩

/-- A run at the end leaves the first run alike. -/
theorem shape_of_mem_head?_appendRecord {record first run : NameRecord} {rest : List NameRecord}
    (mem : run ∈ (appendRecord record (first :: rest)).head?) : run.shape = first.shape := by
  cases rest with
  | nil =>
      rw [appendRecord] at mem
      split at mem <;> cases mem <;> rfl
  | cons second others =>
      cases mem
      rfl

/-- The ranges of the runs add up to the entries. -/
theorem Covers.sum_ranges {runs : List NameRecord} {entries : Nat} (covers : Covers runs entries) :
    (runs.map fun run => (run.range.getD 1).toInt).sum = entries := by
  induction runs generalizing entries with
  | nil =>
      obtain rfl : 0 = entries := covers.total
      rfl
  | cons run rest ih =>
      obtain ⟨pos, _, others, rfl, rest⟩ := covers_cons_iff.mp covers
      rw [List.map_cons, List.sum_cons, ih rest, NameRecord.toInt_range_of_pos pos, Int.natCast_add]

/-- One more entry at the end is covered by the last run or by one of its own. -/
theorem Covers.appendRecord {record : NameRecord} (alone : record.range = none)
    {runs : List NameRecord} {entries : Nat} (covers : Covers runs entries)
    (few : entries + 1 < 2147483648) :
    Covers (KotlinMetadata.appendRecord record runs) (entries + 1) := by
  have one := NameRecord.count_of_range alone
  have single : Covers [record] 1 := covers_singleton_iff.mpr ⟨one ▸ Nat.one_pos, one⟩
  fun_induction KotlinMetadata.appendRecord record runs generalizing entries with
  | case1 =>
      obtain rfl : 0 = entries := covers.total
      exact single
  | case2 last alike =>
      obtain ⟨pos, rfl⟩ := covers_singleton_iff.mp covers
      have longer : last.widened.count = last.count + 1 := NameRecord.count_extended pos few
      exact covers_singleton_iff.mpr ⟨longer ▸ Nat.succ_pos _, longer⟩
  | case3 last different =>
      obtain ⟨pos, rfl⟩ := covers_singleton_iff.mp covers
      refine covers_cons_iff.mpr ⟨pos, ?_, 1, rfl, single⟩
      rintro next ⟨⟩
      exact mt NameRecord.sameShape_iff.mpr different
  | case4 first second others ih =>
      obtain ⟨pos, differs, count, rfl, rest⟩ := covers_cons_iff.mp covers
      refine covers_cons_iff.mpr ⟨pos, ?_, count + 1, rfl, ih rest (by omega)⟩
      intro next mem
      rw [shape_of_mem_head?_appendRecord mem]
      exact differs second rfl

namespace Numbering

/-! ## One name -/

/-- Names with numbers of their own, records that cover their strings, and marks on the numbers of
local classes, in ascending order. -/
structure Consistent (numbering : Numbering) : Prop where
  distinct : numbering.names.Nodup
  covers : Covers numbering.table.records numbering.names.length
  ascending : numbering.table.localNames.Pairwise (· < ·)
  local_iff : ∀ index, index ∈ numbering.table.localNames ↔
    ∃ name ∈ numbering.names, name.isLocal = true ∧ numbering.index name = index

theorem consistent_empty : empty.Consistent where
  distinct := .nil
  covers := ⟨by simp [table, empty, groupRecords], rfl, .nil⟩
  ascending := .nil
  local_iff := by simp [table, localNames, empty]

variable {numbering : Numbering} {name : TableName}

theorem index_lt (few : numbering.names.length < 2147483648) (mem : name ∈ numbering.names) :
    numbering.index name < Int32.ofNat numbering.names.length := by
  have inBounds := List.idxOf_lt_length_of_mem mem
  rw [index, Int32.lt_iff_toInt_lt, Int32.toInt_ofNat_of_lt (Nat.lt_trans inBounds few),
    Int32.toInt_ofNat_of_lt few]
  exact Int.ofNat_lt.mpr inBounds

/-- A new name gets the next number. -/
theorem index_enter_of_new (new : name ∉ numbering.names) :
    (numbering.enter name).index name = Int32.ofNat numbering.names.length := by
  rw [numbering.enter_of_not_mem new, index, List.idxOf_append_of_notMem new,
    List.idxOf_cons_self, Nat.add_zero]

/-- Entering a name keeps strings, records and numbers in step. -/
theorem Consistent.enter (consistent : numbering.Consistent)
    (few : (numbering.enter name).names.length < 2147483648) :
    (numbering.enter name).Consistent := by
  by_cases known : name ∈ numbering.names
  case pos => rwa [numbering.enter_of_mem known]
  case neg =>
    have names : (numbering.enter name).names = numbering.names ++ [name] := by
      rw [numbering.enter_of_not_mem known]
    have length : (numbering.enter name).names.length = numbering.names.length + 1 := by
      rw [names, List.length_append, List.length_singleton]
    have table := numbering.table_enter name known
    rw [length] at few
    constructor
    case distinct =>
      rw [names, ← List.concat_eq_append]
      exact consistent.distinct.concat known
    case covers =>
      rw [table, length]
      exact consistent.covers.appendRecord name.range_stored few
    case ascending =>
      rw [table]
      refine List.pairwise_append.mpr ⟨consistent.ascending, ?_, ?_⟩
      · split <;> simp
      · intro index mem next nextMem
        split at nextMem
        · obtain ⟨other, otherMem, _, rfl⟩ := (consistent.local_iff index).mp mem
          rw [List.mem_singleton.mp nextMem]
          exact index_lt (Nat.lt_of_succ_lt few) otherMem
        · cases nextMem
    case local_iff =>
      intro index
      rw [table, names, List.mem_append, consistent.local_iff]
      constructor
      · rintro (⟨other, mem, isLocal, rfl⟩ | mem)
        · exact ⟨other, List.mem_append_left _ mem, isLocal, numbering.index_enter mem⟩
        · split at mem
          · rename_i isLocal
            rw [List.mem_singleton.mp mem]
            exact ⟨name, by simp, isLocal, index_enter_of_new known⟩
          · cases mem
      · rintro ⟨other, mem, isLocal, rfl⟩
        rcases List.mem_append.mp mem with old | new
        · exact .inl ⟨other, old, isLocal, (numbering.index_enter old).symm⟩
        · obtain rfl := List.mem_singleton.mp new
          rw [if_pos isLocal, index_enter_of_new known]
          exact .inr List.mem_cons_self

/-! ## All names -/

theorem length_names_le_enter (numbering : Numbering) (name : TableName) :
    numbering.names.length ≤ (numbering.enter name).names.length := by
  by_cases known : name ∈ numbering.names
  · rw [numbering.enter_of_mem known]
  · rw [numbering.enter_of_not_mem known, List.length_append]
    exact Nat.le_add_right _ _

theorem length_names_le_enterAll (numbering : Numbering) (calls : List TableName) :
    numbering.names.length ≤ (numbering.enterAll calls).1.names.length := by
  induction calls generalizing numbering with
  | nil => exact Nat.le_refl _
  | cons call rest ih => exact Nat.le_trans (numbering.length_names_le_enter call) (ih _)

/-- Entering names one after another keeps strings, records and numbers in step. -/
theorem Consistent.enterAll (consistent : numbering.Consistent) {calls : List TableName}
    (few : (numbering.enterAll calls).1.names.length < 2147483648) :
    (numbering.enterAll calls).1.Consistent := by
  induction calls generalizing numbering with
  | nil => exact consistent
  | cons call rest ih =>
      have before := (numbering.enter call).length_names_le_enterAll rest
      exact ih (consistent.enter (Nat.lt_of_le_of_lt before few)) few

end Numbering

namespace TableName

/-- The text of a name that is one. -/
def text? : TableName → Option String
  | plain text => some text
  | className _ => none

/-- The class that a name is of. -/
def class? : TableName → Option String
  | plain _ => none
  | className name => some name

/-- How many texts and how many classes a list names. -/
def distinctCount (names : List TableName) : Nat :=
  (names.filterMap text?).toFinset.card + (names.filterMap class?).toFinset.card

theorem text?_eq_some_iff {name : TableName} {text : String} :
    name.text? = some text ↔ name = .plain text := by
  cases name <;> simp [text?]

theorem class?_eq_some_iff {name : TableName} {text : String} :
    name.class? = some text ↔ name = .className text := by
  cases name <;> simp [class?]

theorem mem_filterMap_text? {names : List TableName} {text : String} :
    text ∈ names.filterMap text? ↔ .plain text ∈ names := by
  simp only [List.mem_filterMap, text?_eq_some_iff, exists_eq_right]

theorem mem_filterMap_class? {names : List TableName} {text : String} :
    text ∈ names.filterMap class? ↔ .className text ∈ names := by
  simp only [List.mem_filterMap, class?_eq_some_iff, exists_eq_right]

theorem distinctCount_congr {names others : List TableName}
    (same : ∀ name, name ∈ names ↔ name ∈ others) : distinctCount names = distinctCount others := by
  have texts : (names.filterMap text?).toFinset = (others.filterMap text?).toFinset := by
    ext text
    simp only [List.mem_toFinset, mem_filterMap_text?, same]
  have classes : (names.filterMap class?).toFinset = (others.filterMap class?).toFinset := by
    ext name
    simp only [List.mem_toFinset, mem_filterMap_class?, same]
  rw [distinctCount, texts, classes, distinctCount]

/-- Names that differ are as many as the texts and the classes among them. -/
theorem distinctCount_of_nodup {names : List TableName} (distinct : names.Nodup) :
    distinctCount names = names.length := by
  induction names with
  | nil => rfl
  | cons name rest ih =>
      rcases List.nodup_cons.mp distinct with ⟨new, restDistinct⟩
      rw [List.length_cons, ← ih restDistinct, distinctCount, distinctCount]
      cases name with
      | plain text =>
          have absent : text ∉ (rest.filterMap text?).toFinset := by
            rwa [List.mem_toFinset, mem_filterMap_text?]
          simp only [List.filterMap_cons, text?, class?, List.toFinset_cons,
            Finset.card_insert_of_notMem absent]
          omega
      | className name =>
          have absent : name ∉ (rest.filterMap class?).toFinset := by
            rwa [List.mem_toFinset, mem_filterMap_class?]
          simp only [List.filterMap_cons, text?, class?, List.toFinset_cons,
            Finset.card_insert_of_notMem absent]
          omega

end TableName

namespace Numbering

variable {numbering : Numbering}

theorem index_inj (few : numbering.names.length < 2147483648) {name other : TableName}
    (mem : name ∈ numbering.names) (otherMem : other ∈ numbering.names) :
    numbering.index name = numbering.index other ↔ name = other := by
  constructor
  · intro same
    have inBounds := Nat.lt_trans (List.idxOf_lt_length_of_mem mem) few
    have otherInBounds := Nat.lt_trans (List.idxOf_lt_length_of_mem otherMem) few
    exact (List.idxOf_inj mem).mp (ofNat_inj inBounds otherInBounds same)
  · exact congrArg numbering.index

/-- The numbers of names that differ are those from zero on. -/
theorem exists_index_eq_iff (distinct : numbering.names.Nodup) {index : Int32} :
    (∃ name ∈ numbering.names, numbering.index name = index) ↔
      ∃ position < numbering.names.length, Int32.ofNat position = index := by
  constructor
  · rintro ⟨name, mem, rfl⟩
    exact ⟨_, List.idxOf_lt_length_of_mem mem, rfl⟩
  · rintro ⟨position, inBounds, rfl⟩
    refine ⟨numbering.names[position], List.getElem_mem inBounds, ?_⟩
    rw [Numbering.index, distinct.idxOf_getElem]

/-- What holds of a table and its strings after numbers were handed out for some names.  The ranges
of the records add up to the strings, and no two neighbours could share a record.  Names that differ
get different numbers and no others do; texts and classes never share one.  The numbers are those
from zero on, as many as there are texts and classes, and the marked ones ascend and are those of
classes whose names have the mark. -/
structure InStep (calls : List TableName) (indices : List Int32) (table : StringTable)
    (strings : List String) : Prop where
  answered : indices.length = calls.length
  ranges : (table.records.map fun record => (record.range.getD 1).toInt).sum = strings.length
  neighbours : table.records.IsChain fun record next => record.sameShape next = false
  plain_iff : ∀ {text other index otherIndex}, (.plain text, index) ∈ calls.zip indices →
    (.plain other, otherIndex) ∈ calls.zip indices → (index = otherIndex ↔ text = other)
  className_iff : ∀ {name other index otherIndex}, (.className name, index) ∈ calls.zip indices →
    (.className other, otherIndex) ∈ calls.zip indices → (index = otherIndex ↔ name = other)
  apart : ∀ {text name index otherIndex}, (.plain text, index) ∈ calls.zip indices →
    (.className name, otherIndex) ∈ calls.zip indices → index ≠ otherIndex
  handed_iff : ∀ index, index ∈ indices ↔
    ∃ position < TableName.distinctCount calls, Int32.ofNat position = index
  ascending : table.localNames.Pairwise (· < ·)
  local_iff : ∀ index, index ∈ table.localNames ↔
    ∃ name : String, (.className name, index) ∈ calls.zip indices ∧
      name.toList.head? = some localMarker

theorem isLocalName_iff {name : String} :
    isLocalName name = true ↔ name.toList.head? = some localMarker := by
  rw [isLocalName]
  cases name.toList with
  | nil => simp [splitLocal]
  | cons first rest =>
      by_cases marked : first = '.'
      · simp [splitLocal, localMarker, marked]
      · simp [splitLocal, localMarker, marked]

theorem mem_zip_map_iff {α β : Type} {f : α → β} {as : List α} {a : α} {b : β} :
    (a, b) ∈ as.zip (as.map f) ↔ a ∈ as ∧ f a = b := by
  rw [← List.map_prod_left_eq_zip, List.mem_map]
  constructor
  · rintro ⟨_, mem, same⟩
    cases same
    exact ⟨mem, rfl⟩
  · rintro ⟨mem, rfl⟩
    exact ⟨a, mem, rfl⟩

/-- Two numbers that were handed out are the same if the names are, and only then. -/
theorem index_eq_iff_of_handed (few : numbering.names.length < 2147483648)
    {calls : List TableName} (entered : ∀ name, name ∈ numbering.names ↔ name ∈ calls)
    {name other : TableName} {index otherIndex : Int32}
    (given : (name, index) ∈ calls.zip (calls.map numbering.index))
    (otherGiven : (other, otherIndex) ∈ calls.zip (calls.map numbering.index)) :
    index = otherIndex ↔ name = other := by
  obtain ⟨mem, rfl⟩ := mem_zip_map_iff.mp given
  obtain ⟨otherMem, rfl⟩ := mem_zip_map_iff.mp otherGiven
  exact index_inj few ((entered _).mpr mem) ((entered _).mpr otherMem)

/-- A consistent numbering is in step with the numbers of its names. -/
theorem Consistent.inStep (consistent : numbering.Consistent)
    (few : numbering.names.length < 2147483648) {calls : List TableName}
    (entered : ∀ name, name ∈ numbering.names ↔ name ∈ calls) :
    InStep calls (calls.map numbering.index) numbering.table numbering.strings := by
  constructor
  case answered => exact List.length_map _
  case ranges => rw [consistent.covers.sum_ranges, strings, List.length_map]
  case neighbours =>
    refine consistent.covers.neighbours.imp fun record next different => ?_
    rwa [Bool.eq_false_iff, ne_eq, NameRecord.sameShape_iff]
  case plain_iff =>
    intro text other index otherIndex given otherGiven
    rw [index_eq_iff_of_handed few entered given otherGiven, TableName.plain.injEq]
  case className_iff =>
    intro name other index otherIndex given otherGiven
    rw [index_eq_iff_of_handed few entered given otherGiven, TableName.className.injEq]
  case apart =>
    intro text name index otherIndex given otherGiven same
    cases (index_eq_iff_of_handed few entered given otherGiven).mp same
  case handed_iff =>
    intro index
    have count := TableName.distinctCount_of_nodup consistent.distinct
    rw [TableName.distinctCount_congr entered] at count
    rw [count, ← exists_index_eq_iff consistent.distinct, List.mem_map]
    simp only [entered]
  case ascending => exact consistent.ascending
  case local_iff =>
    intro index
    rw [consistent.local_iff]
    constructor
    · rintro ⟨name, mem, isLocal, rfl⟩
      cases name with
      | plain text => cases isLocal
      | className name =>
          exact ⟨name, mem_zip_map_iff.mpr ⟨(entered _).mp mem, rfl⟩, isLocalName_iff.mp isLocal⟩
    · rintro ⟨name, given, marked⟩
      obtain ⟨mem, rfl⟩ := mem_zip_map_iff.mp given
      exact ⟨_, (entered _).mpr mem, isLocalName_iff.mpr marked, rfl⟩

/-- Names that are entered one after another are numbered by first occurrence, and whatever names
they are, strings, records, numbers and marks stay in step. -/
theorem inStep_enterAll {calls : List TableName} {indices : List Int32}
    (run : empty.enterAll calls = (numbering, indices))
    (few : numbering.strings.length < 2147483648) :
    numbering = ofList calls ∧ InStep calls indices numbering.table numbering.strings := by
  have final : (empty.enterAll calls).1 = numbering := congrArg Prod.fst run
  have numbered : numbering = ofList calls := final.symm.trans (fst_enterAll_ofList [] calls)
  have handed : indices = calls.map numbering.index := by
    have handed := snd_enterAll empty calls
    rwa [run] at handed
  have few : numbering.names.length < 2147483648 := by rwa [strings, List.length_map] at few
  have consistent : numbering.Consistent :=
    final ▸ consistent_empty.enterAll (final.symm ▸ few)
  have entered : ∀ name, name ∈ numbering.names ↔ name ∈ calls := by
    intro name
    rw [numbered, mem_names_ofList]
  rw [handed]
  exact ⟨numbered, consistent.inStep few entered⟩

/-- Two descriptors in a row share a record, and of three spellings of one name the local class is
marked. -/
theorem inStep_enterAll_sample :
    let calls : List TableName :=
      [ .className "kotlin/Any", .className ".kotlin/Any", .plain "kotlin/Any"
      , .className "a/B", .className "a/C", .className "kotlin/Any", .plain ".a/B" ]
    ∃ numbering, empty.enterAll calls = (numbering, [0, 1, 2, 3, 4, 0, 5]) ∧
      InStep calls [0, 1, 2, 3, 4, 0, 5] numbering.table numbering.strings ∧
      numbering.table.records.map (·.range) = [none, none, none, some 2, none] ∧
      numbering.table.localNames = [1] := by
  intro calls
  have run : empty.enterAll calls = (⟨calls.eraseIdx 5⟩, [0, 1, 2, 3, 4, 0, 5]) := rfl
  exact ⟨_, run, (inStep_enterAll run (by decide)).2, by decide +kernel, by decide +kernel⟩

end Numbering

end KotlinMetadata
