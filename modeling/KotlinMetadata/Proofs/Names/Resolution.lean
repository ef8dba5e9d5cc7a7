import KotlinMetadata.Names.Resolver
import Mathlib.Algebra.Order.Ring.Int

/-!
# Numbers resolved through runs

Looking a number up cuts the runs of the table off where the strings end, and
takes pieces of texts by bounds that the table gives.  Neither shows: an entry
has the record whose run would reach it in full, and a number fails to resolve
just if there is no string for it or if the bounds of its record do not fit the
text that they are for.
-/

namespace KotlinMetadata

open Wire

/-! ## The record of an entry -/

/-- How many entries the records up to a position cover. -/
def cumulativeRange (records : List NameRecord) (position : Nat) : Nat :=
  ((records.take (position + 1)).map NameRecord.count).sum

/-- The record of an entry is the first one whose cumulative range exceeds it. -/
def RecordAt (records : List NameRecord) (entry : Nat) (record : NameRecord) : Prop :=
  ∃ position, records[position]? = some record ∧ entry < cumulativeRange records position ∧
    ∀ earlier < position, cumulativeRange records earlier ≤ entry

section

variable {record first : NameRecord} {rest records : List NameRecord} {entry limit : Nat}

@[simp]
theorem cumulativeRange_cons_zero (first : NameRecord) (rest : List NameRecord) :
    cumulativeRange (first :: rest) 0 = first.count := by
  simp [cumulativeRange]

@[simp]
theorem cumulativeRange_cons_succ (first : NameRecord) (rest : List NameRecord) (position : Nat) :
    cumulativeRange (first :: rest) (position + 1) =
      first.count + cumulativeRange rest position := by
  simp [cumulativeRange]

/-- The first record covers the first entries, and the others cover what is behind them. -/
theorem recordAt_cons_iff :
    RecordAt (first :: rest) entry record ↔
      if entry < first.count then first = record
      else RecordAt rest (entry - first.count) record := by
  split
  case isTrue inFirst =>
    constructor
    · rintro ⟨position, found, _, unreached⟩
      cases position with
      | zero => simpa using found
      | succ position =>
          have passed := unreached 0 position.succ_pos
          rw [cumulativeRange_cons_zero] at passed
          omega
    · rintro rfl
      exact ⟨0, rfl, by simpa using inFirst, by simp⟩
  case isFalse past =>
    constructor
    · rintro ⟨position, found, reached, unreached⟩
      cases position with
      | zero => exact absurd (by simpa using reached) past
      | succ position =>
          rw [cumulativeRange_cons_succ] at reached
          refine ⟨position, by simpa using found, by omega, fun earlier before => ?_⟩
          have passed := unreached (earlier + 1) (Nat.succ_lt_succ before)
          rw [cumulativeRange_cons_succ] at passed
          omega
    · rintro ⟨position, found, reached, unreached⟩
      refine ⟨position + 1, by simpa using found, ?_, fun earlier before => ?_⟩
      · rw [cumulativeRange_cons_succ]
        omega
      · cases earlier with
        | zero => simpa using past
        | succ earlier =>
            have passed := unreached earlier (Nat.lt_of_succ_lt_succ before)
            rw [cumulativeRange_cons_succ]
            omega

/-- Where the limit does not cut the first run off before an entry, it does not show. -/
theorem getElem?_expandRecords_cons (inBounds : entry < limit) :
    (expandRecords limit (first :: rest))[entry]? =
      if entry < first.count then some first
      else (expandRecords (limit - first.count) rest)[entry - first.count]? := by
  rw [expandRecords]
  -- A run that the limit cuts off reaches up to the limit, hence past the entry.
  split
  case isTrue inFirst =>
    rw [List.getElem?_append_left (by simp; omega), List.getElem?_replicate_of_lt (by omega)]
  case isFalse past =>
    have whole : min first.count limit = first.count := Nat.min_eq_left (by omega)
    rw [whole, List.getElem?_append_right (by simp; omega), List.length_replicate]

/-- An entry below the limit has the record that it would have without one. -/
theorem getElem?_expandRecords_eq_some_iff (inBounds : entry < limit) :
    (expandRecords limit records)[entry]? = some record ↔ RecordAt records entry record := by
  induction records generalizing entry limit with
  | nil => simp [expandRecords, RecordAt]
  | cons first rest ih =>
      rw [getElem?_expandRecords_cons inBounds, recordAt_cons_iff]
      split
      · rw [Option.some.injEq]
      · exact ih (by omega)

/-- An entry below the limit has no record if it is past all of them. -/
theorem getElem?_expandRecords_eq_none_iff (inBounds : entry < limit) :
    (expandRecords limit records)[entry]? = none ↔
      (records.map NameRecord.count).sum ≤ entry := by
  induction records generalizing entry limit with
  | nil => simp [expandRecords]
  | cons first rest ih =>
      rw [getElem?_expandRecords_cons inBounds, List.map_cons, List.sum_cons]
      split
      · simp only [reduceCtorEq, false_iff]
        omega
      · rw [ih (by omega)]
        omega

end

/-! ## The text of an entry -/

namespace NameRecord

/-- What a record starts from at an entry with a given string: a text of its own, else the known
name at its position, if there is one, else the string. -/
inductive StartsFrom (record : NameRecord) (string : String) : String → Prop where
  | own {text : String} (own : record.text = some text) : StartsFrom record string text
  | known {position : Int32} {name : String} (bare : record.text = none)
      (points : record.predefined = some position) (valid : 0 ≤ position)
      (listed : predefinedNames[position.toInt.toNat]? = some name) : StartsFrom record string name
  | entry (bare : record.text = none)
      (unlisted : ∀ position, record.predefined = some position →
        position < 0 ∨ predefinedNames.length ≤ position.toInt) : StartsFrom record string string

/-- The first two bounds of a record, where they do not fit a text of a given length. -/
def Misfits (record : NameRecord) (length : Nat) (first last : Int32) : Prop :=
  (∃ rest, record.substring = first :: last :: rest) ∧
    ¬ (0 ≤ first ∧ first ≤ last ∧ last.toInt ≤ length)

/-- What a record cuts out of a text: the piece between its first two bounds, or all of the text if
it has fewer. -/
inductive Cuts (record : NameRecord) (chars : List Char) : List Char → Prop where
  | whole (few : record.substring.length < 2) : Cuts record chars chars
  | piece {before piece after : List Char} {first last : Int32} {rest : List Int32}
      (bounds : record.substring = first :: last :: rest) (parts : chars = before ++ piece ++ after)
      (starts : first.toInt = before.length) (ends : last.toInt = (before ++ piece).length) :
      Cuts record chars piece

variable {record : NameRecord}

theorem predefinedName_of_points {position : Int32} (points : record.predefined = some position) :
    record.predefinedName =
      if position < 0 then none else predefinedNames[position.toInt.toNat]? := by
  rw [predefinedName, points, Option.bind_some]

theorem predefinedName_eq_none_iff :
    record.predefinedName = none ↔ ∀ position, record.predefined = some position →
      position < 0 ∨ predefinedNames.length ≤ position.toInt := by
  cases points : record.predefined with
  | none => simp [predefinedName, points]
  | some position =>
      rw [predefinedName_of_points points]
      simp only [Option.some.injEq, forall_eq', Int32.lt_iff_toInt_lt, Int32.toInt_zero]
      split
      case isTrue negative => simp [negative]
      case isFalse valid =>
        rw [List.getElem?_eq_none_iff]
        omega

theorem StartsFrom.baseText_eq {string base : String} (starts : record.StartsFrom string base) :
    record.baseText (some string) = some base := by
  rw [baseText]
  cases starts with
  | own own => rw [own]; rfl
  | known bare points valid listed =>
      rw [bare, predefinedName_of_points points, if_neg (Int32.not_lt.mpr valid), listed]
      rfl
  | entry bare unlisted =>
      rw [bare, predefinedName_eq_none_iff.mpr unlisted]
      rfl

/-- A record has something to start from wherever there is a string. -/
theorem exists_startsFrom (record : NameRecord) (string : String) :
    ∃ base, record.StartsFrom string base := by
  cases own : record.text with
  | some text => exact ⟨text, .own own⟩
  | none =>
      cases known : record.predefinedName with
      | none => exact ⟨string, .entry own (predefinedName_eq_none_iff.mp known)⟩
      | some name =>
          obtain ⟨position, points, listed⟩ := Option.bind_eq_some_iff.mp known
          obtain ⟨notNegative, listed⟩ := Option.ite_none_left_eq_some.mp listed
          exact ⟨name, .known own points (Int32.not_lt.mp notNegative) listed⟩

variable {chars piece : List Char} {first last : Int32}

theorem cut_of_few (few : record.substring.length < 2) : record.cut chars = .ok chars := by
  rw [cut]
  split
  case h_1 bounds =>
    rw [bounds, List.length_cons, List.length_cons] at few
    omega
  case h_2 => rfl

theorem cut_of_bounds {rest : List Int32} (bounds : record.substring = first :: last :: rest) :
    record.cut chars =
      if 0 ≤ first ∧ first ≤ last ∧ last.toInt ≤ chars.length then
        .ok ((chars.take last.toInt.toNat).drop first.toInt.toNat)
      else .error (first, last) := by
  have fits_iff : (first < 0 ∨ last < first ∨ chars.length < last.toInt.toNat) ↔
      ¬ (0 ≤ first ∧ first ≤ last ∧ last.toInt ≤ chars.length) := by
    simp only [Int32.lt_iff_toInt_lt, Int32.le_iff_toInt_le, Int32.toInt_zero]
    omega
  rw [cut, bounds]
  simp only [fits_iff, ite_not]

theorem few_or_bounds (record : NameRecord) :
    record.substring.length < 2 ∨ ∃ first last rest, record.substring = first :: last :: rest := by
  match record.substring with
  | [] | [_] => exact .inl (by simp)
  | first :: last :: rest => exact .inr ⟨first, last, rest, rfl⟩

theorem cut_eq_error_iff :
    record.cut chars = .error (first, last) ↔ record.Misfits chars.length first last := by
  rcases record.few_or_bounds with few | ⟨begin, stop, rest, bounds⟩
  · rw [cut_of_few few]
    refine iff_of_false nofun ?_
    rintro ⟨⟨rest, bounds⟩, _⟩
    rw [bounds, List.length_cons, List.length_cons] at few
    omega
  · rw [cut_of_bounds bounds, Misfits, bounds]
    constructor
    · intro failed
      split at failed
      case isTrue => cases failed
      case isFalse misfits =>
        cases failed
        exact ⟨⟨rest, rfl⟩, misfits⟩
    · rintro ⟨⟨_, same⟩, misfits⟩
      cases same
      exact if_neg misfits

/-- What is between two bounds that fit, with the text on both sides of it. -/
theorem take_append_drop_of_fits {chars : List Char} {start stop : Nat} (ordered : start ≤ stop) :
    chars = chars.take start ++ (chars.take stop).drop start ++ chars.drop stop := by
  have front : chars.take start = (chars.take stop).take start := by
    rw [List.take_take, Nat.min_eq_left ordered]
  rw [front, List.take_append_drop, List.take_append_drop]

theorem cuts_of_cut (cutOut : record.cut chars = .ok piece) : record.Cuts chars piece := by
  rcases record.few_or_bounds with few | ⟨first, last, rest, bounds⟩
  · rw [cut_of_few few] at cutOut
    cases cutOut
    exact .whole few
  · rw [cut_of_bounds bounds] at cutOut
    split at cutOut
    case isTrue fits =>
      cases cutOut
      simp only [Int32.le_iff_toInt_le, Int32.toInt_zero] at fits
      refine .piece bounds (take_append_drop_of_fits (by omega)) ?_ ?_
      · rw [List.length_take]
        omega
      · rw [List.length_append, List.length_take, List.length_drop, List.length_take]
        omega
    case isFalse => cases cutOut

theorem Cuts.cut (cuts : record.Cuts chars piece) : record.cut chars = .ok piece := by
  cases cuts with
  | whole few => exact cut_of_few few
  | @piece before _ after first last rest bounds parts starts ends =>
      subst parts
      have fits : 0 ≤ first ∧ first ≤ last ∧
          last.toInt ≤ (before ++ piece ++ after).length := by
        rw [Int32.le_iff_toInt_le, Int32.le_iff_toInt_le, Int32.toInt_zero, starts, ends]
        simp only [List.length_append]
        omega
      rw [cut_of_bounds bounds, if_pos fits, starts, ends, Int.toNat_natCast, Int.toNat_natCast,
        List.take_left, List.drop_left]

end NameRecord

/-- What an operation makes of a text.  A descriptor loses its first and its last character, if it
has both. -/
inductive NameOperation.Gives : NameOperation → List Char → List Char → Prop where
  | same {chars : List Char} : Gives none chars chars
  | internal {chars : List Char} : Gives internalToClass chars (replaceChar '$' '.' chars)
  | descriptor {first last : Char} {inner : List Char} :
      Gives descriptorToClass (first :: (inner ++ [last])) (replaceChar '$' '.' inner)
  | short {chars : List Char} (short : chars.length < 2) :
      Gives descriptorToClass chars (replaceChar '$' '.' chars)

theorem NameOperation.apply_descriptor (first last : Char) (inner : List Char) :
    descriptorToClass.apply (first :: (inner ++ [last])) = replaceChar '$' '.' inner := by
  have ends : 2 ≤ (first :: (inner ++ [last])).length := by
    rw [List.length_cons, List.length_append, List.length_singleton]
    omega
  rw [apply, if_pos ends, List.tail_cons, List.dropLast_concat]

theorem NameOperation.gives_iff {operation : NameOperation} {chars result : List Char} :
    operation.Gives chars result ↔ operation.apply chars = result := by
  constructor
  · rintro (_ | _ | _ | short)
    · rfl
    · rfl
    · exact apply_descriptor _ _ _
    · rw [apply, if_neg (Nat.not_le_of_lt short)]
  · rintro rfl
    cases operation with
    | none => exact .same
    | internalToClass => exact .internal
    | descriptorToClass =>
        match chars with
        | [] => exact .short (by simp)
        | first :: rest =>
            rcases List.eq_nil_or_concat rest with rfl | ⟨inner, last, rfl⟩
            · exact .short (by simp)
            · rw [List.concat_eq_append, apply_descriptor]
              exact .descriptor

/-! ## Numbers -/

/-- A number is resolved out of a table and its strings.  All pieces are taken within bounds. -/
inductive StringTable.Answers (table : StringTable) (strings : List String) (index : Int32) :
    Except PayloadError String → Prop where
  /-- There is no string for the number. -/
  | outside (outside : index < 0 ∨ strings.length ≤ index.toInt) :
      Answers table strings index (.error (.indexOutOfRange index))
  /-- No record reaches the number, so its string is the answer. -/
  | bare {string : String} (valid : 0 ≤ index)
      (found : strings[index.toInt.toNat]? = some string)
      (past : (table.records.map NameRecord.count).sum ≤ index.toInt.toNat) :
      Answers table strings index (.ok string)
  /-- The bounds of the record do not fit the text that it starts from. -/
  | misfit {string base : String} {record : NameRecord} {first last : Int32} (valid : 0 ≤ index)
      (found : strings[index.toInt.toNat]? = some string)
      (reached : RecordAt table.records index.toInt.toNat record)
      (starts : record.StartsFrom string base)
      (misfits : record.Misfits base.length first last) :
      Answers table strings index (.error (.invalidSubstring index first last))
  /-- The record makes the answer of the text that it starts from. -/
  | text {string base : String} {record : NameRecord} {piece chars : List Char} (valid : 0 ≤ index)
      (found : strings[index.toInt.toNat]? = some string)
      (reached : RecordAt table.records index.toInt.toNat record)
      (starts : record.StartsFrom string base)
      (cuts : record.Cuts base.toList piece)
      (gives : (record.operation.getD .none).Gives (record.replaced piece) chars) :
      Answers table strings index (.ok (String.ofList chars))

namespace StringTable

variable {table : StringTable} {strings : List String} {index : Int32} {entry : Nat}

theorem size_records_resolver_le (table : StringTable) (strings : List String) :
    (table.resolver strings).records.size ≤ strings.length :=
  length_expandRecords_le strings.length table.records

theorem getElem?_records_eq_some_iff (inBounds : entry < strings.length) {record : NameRecord} :
    (table.resolver strings).records[entry]? = some record ↔
      RecordAt table.records entry record := by
  rw [resolver, List.getElem?_toArray, getElem?_expandRecords_eq_some_iff inBounds]

theorem getElem?_records_eq_none_iff (inBounds : entry < strings.length) :
    (table.resolver strings).records[entry]? = none ↔
      (table.records.map NameRecord.count).sum ≤ entry := by
  rw [resolver, List.getElem?_toArray, getElem?_expandRecords_eq_none_iff inBounds]

/-- Where there is no string, there is no record. -/
theorem getElem?_of_length_le (table : StringTable) (outside : strings.length ≤ entry) :
    (table.resolver strings).records[entry]? = none ∧
      (table.resolver strings).strings[entry]? = none := by
  constructor
  · exact Array.getElem?_eq_none (Nat.le_trans (table.size_records_resolver_le strings) outside)
  · rw [resolver, List.getElem?_toArray, List.getElem?_eq_none outside]

/-- The look-up gives what a number is resolved to. -/
theorem Answers.text_eq {result : Except PayloadError String}
    (answers : table.Answers strings index result) :
    (table.resolver strings).text index = result := by
  have inBounds {string : String} (found : strings[index.toInt.toNat]? = some string) :
      index.toInt.toNat < strings.length := (List.getElem?_eq_some_iff.mp found).1
  have given {string : String} (found : strings[index.toInt.toNat]? = some string) :
      (table.resolver strings).strings[index.toInt.toNat]? = some string := by
    rw [resolver, List.getElem?_toArray, found]
  cases answers with
  | outside outside =>
      rw [Resolver.text]
      split
      case isTrue => rfl
      case isFalse valid =>
        have far : strings.length ≤ index.toInt.toNat := by
          have := outside.resolve_left valid
          omega
        obtain ⟨noRecord, noString⟩ := table.getElem?_of_length_le far
        simp only [noRecord, noString]
  | bare valid found past =>
      have noRecord := (getElem?_records_eq_none_iff (inBounds found)).mpr past
      rw [Resolver.text, if_neg (Int32.not_lt.mpr valid)]
      simp only [noRecord, given found]
  | misfit valid found reached starts misfits =>
      have record := (getElem?_records_eq_some_iff (inBounds found)).mpr reached
      have cut := NameRecord.cut_eq_error_iff.mpr misfits
      rw [Resolver.text, if_neg (Int32.not_lt.mpr valid)]
      simp only [record, given found, starts.baseText_eq, cut]
  | text valid found reached starts cuts gives =>
      have record := (getElem?_records_eq_some_iff (inBounds found)).mpr reached
      rw [Resolver.text, if_neg (Int32.not_lt.mpr valid)]
      simp only [record, given found, starts.baseText_eq, cuts.cut,
        NameOperation.gives_iff.mp gives]

/-- Every number is resolved, to a text or to a fault. -/
theorem exists_answer (table : StringTable) (strings : List String) (index : Int32) :
    ∃ result, table.Answers strings index result := by
  by_cases outside : index < 0 ∨ strings.length ≤ index.toInt
  case pos => exact ⟨_, .outside outside⟩
  case neg =>
    obtain ⟨notNegative, inside⟩ := not_or.mp outside
    have valid := Int32.not_lt.mp notNegative
    have inBounds : index.toInt.toNat < strings.length := by
      rw [Int32.le_iff_toInt_le, Int32.toInt_zero] at valid
      omega
    have found := List.getElem?_eq_getElem inBounds
    cases selected : (table.resolver strings).records[index.toInt.toNat]? with
    | none => exact ⟨_, .bare valid found ((getElem?_records_eq_none_iff inBounds).mp selected)⟩
    | some record =>
        have reached := (getElem?_records_eq_some_iff inBounds).mp selected
        obtain ⟨base, starts⟩ := record.exists_startsFrom strings[index.toInt.toNat]
        cases cut : record.cut base.toList with
        | error bounds =>
            exact ⟨_, .misfit valid found reached starts (NameRecord.cut_eq_error_iff.mp cut)⟩
        | ok piece =>
            have cuts := NameRecord.cuts_of_cut cut
            exact ⟨_, .text valid found reached starts cuts (NameOperation.gives_iff.mpr rfl)⟩

theorem text_resolver_eq_iff {result : Except PayloadError String} :
    (table.resolver strings).text index = result ↔ table.Answers strings index result := by
  constructor
  · rintro rfl
    obtain ⟨result, answers⟩ := table.exists_answer strings index
    rwa [answers.text_eq]
  · exact Answers.text_eq

/-- The bounds of a number's record, where they do not fit the text that it starts from. -/
def Misfit (table : StringTable) (strings : List String) (index first last : Int32) : Prop :=
  0 ≤ index ∧ ∃ string record base, strings[index.toInt.toNat]? = some string ∧
    RecordAt table.records index.toInt.toNat record ∧
    record.StartsFrom string base ∧ record.Misfits base.length first last

theorem text_resolver_eq_outOfRange_iff :
    (table.resolver strings).text index = .error (.indexOutOfRange index) ↔
      index < 0 ∨ strings.length ≤ index.toInt := by
  rw [text_resolver_eq_iff]
  constructor
  · rintro ⟨outside⟩
    exact outside
  · exact .outside

theorem text_resolver_eq_invalidSubstring_iff {first last : Int32} :
    (table.resolver strings).text index = .error (.invalidSubstring index first last) ↔
      table.Misfit strings index first last := by
  rw [text_resolver_eq_iff]
  constructor
  · rintro (_ | _ | ⟨valid, found, reached, starts, misfits⟩)
    exact ⟨valid, _, _, _, found, reached, starts, misfits⟩
  · rintro ⟨valid, _, _, _, found, reached, starts, misfits⟩
    exact .misfit valid found reached starts misfits

/-- A number is resolved just if there is a string for it and the bounds of its record fit. -/
theorem exists_text_resolver_eq_ok_iff :
    (∃ text, (table.resolver strings).text index = .ok text) ↔
      (0 ≤ index ∧ index.toInt < strings.length) ∧
        ¬ ∃ first last, table.Misfit strings index first last := by
  constructor
  · rintro ⟨text, read⟩
    refine ⟨?_, ?_⟩
    · have inside := mt text_resolver_eq_outOfRange_iff.mpr (by rw [read]; nofun)
      obtain ⟨notNegative, inside⟩ := not_or.mp inside
      exact ⟨Int32.not_lt.mp notNegative, Int.not_le.mp inside⟩
    · rintro ⟨first, last, misfit⟩
      cases read.symm.trans (text_resolver_eq_invalidSubstring_iff.mpr misfit)
  · rintro ⟨⟨valid, inside⟩, fits⟩
    obtain ⟨result, answers⟩ := table.exists_answer strings index
    have read := answers.text_eq
    cases answers with
    | outside outside =>
        exact absurd outside (not_or.mpr ⟨Int32.not_lt.mpr valid, Int.not_le.mpr inside⟩)
    | misfit => exact absurd ⟨_, _, text_resolver_eq_invalidSubstring_iff.mp read⟩ fits
    | bare => exact ⟨_, read⟩
    | text => exact ⟨_, read⟩

/-- Whatever the ranges of a table, the look-up has no more records than strings, and every entry
has the first record whose cumulative range exceeds it, or none past their total.  A number fails
to resolve if there is no string for it or if the bounds of its record do not fit, and only then;
otherwise it has the text that the record makes, out of pieces within bounds. -/
theorem text_resolver (table : StringTable) (strings : List String) :
    (table.resolver strings).records.size ≤ strings.length ∧
      (∀ entry < strings.length,
        (∀ record, (table.resolver strings).records[entry]? = some record ↔
          RecordAt table.records entry record) ∧
        ((table.resolver strings).records[entry]? = none ↔
          (table.records.map NameRecord.count).sum ≤ entry)) ∧
      ∀ index,
        ((table.resolver strings).text index = .error (.indexOutOfRange index) ↔
          index < 0 ∨ strings.length ≤ index.toInt) ∧
        (∀ first last,
          (table.resolver strings).text index = .error (.invalidSubstring index first last) ↔
            table.Misfit strings index first last) ∧
        ((∃ text, (table.resolver strings).text index = .ok text) ↔
          (0 ≤ index ∧ index.toInt < strings.length) ∧
            ¬ ∃ first last, table.Misfit strings index first last) ∧
        ∀ result, (table.resolver strings).text index = result ↔
          table.Answers strings index result := by
  refine ⟨table.size_records_resolver_le strings, fun entry inBounds => ?_, fun index => ?_⟩
  · exact ⟨fun record => getElem?_records_eq_some_iff inBounds,
      getElem?_records_eq_none_iff inBounds⟩
  · exact ⟨text_resolver_eq_outOfRange_iff, fun first last => text_resolver_eq_invalidSubstring_iff,
      exists_text_resolver_eq_ok_iff, fun result => text_resolver_eq_iff⟩

/-- A negative range and an empty one cover nothing, and one far beyond the strings is cut off. -/
theorem text_resolver_sample :
    let last : NameRecord := { range := some 2147483647, substring := [1, 9, 7] }
    let table : StringTable :=
      { records :=
          [ { range := some (-3), text := some "a" }, { substring := [0, 2] }
          , { range := some 0, predefined := some 3 }, last ] }
    let names := table.resolver ["abc", "de"]
    1 < ["abc", "de"].length ∧ RecordAt table.records 1 last ∧
      table.Answers ["abc", "de"] 0 (.ok "ab") ∧ table.Misfit ["abc", "de"] 1 1 9 ∧
      names.text 2 = .error (.indexOutOfRange 2) ∧
      names.text (-1) = .error (.indexOutOfRange (-1)) := by
  intro last table names
  obtain ⟨_, entries, numbers⟩ := table.text_resolver ["abc", "de"]
  exact ⟨by decide, ((entries 1 (by decide)).1 last).mp rfl,
    ((numbers 0).2.2.2 _).mp (by decide +kernel), ((numbers 1).2.1 1 9).mp (by decide +kernel),
    (numbers 2).1.mpr (by decide), (numbers (-1)).1.mpr (by decide)⟩

end StringTable

end KotlinMetadata
