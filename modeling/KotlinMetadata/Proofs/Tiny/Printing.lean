import KotlinMetadata.Proofs.Tiny.Reading

/-!
# Mapping files written and read back

A table of class names can be written in either layout, with comments and
lines about members anywhere between its rows.  What is read back is the table
and nothing else, so both layouts come out the same.
-/

namespace KotlinMetadata.Tiny

/-- The layouts that a mapping file can be written in. -/
inductive Format where
  /-- Every line begins with a word for what it tells of. -/
  | v1
  /-- Lines about members are indented. -/
  | v2
  deriving DecidableEq, Repr

namespace Format

/-- The columns in front of the namespaces. -/
def heading : Format → List String
  | v1 => ["v1"]
  | v2 => ["tiny", "2", "0"]

/-- The first column of a class. -/
def tag : Format → String
  | v1 => "CLASS"
  | v2 => "c"

/-- The layout that the first line declares. -/
def layout (format : Format) (namespaces : List String) : Layout where
  tag := format.tag.toList
  namespaces := namespaces.map String.toList

/-- Lines that do not tell of a class. -/
inductive PassesOver (format : Format) : List Char → Prop where
  /-- A comment. -/
  | comment {text : List Char} (single : '\n' ∉ text) : PassesOver format ('#' :: text)
  /-- An indented line, such as one about a member. -/
  | indented {text : List Char} (single : '\n' ∉ text) : PassesOver format ('\t' :: text)
  /-- A line with another tag in front of its other columns. -/
  | tagged {tag text : List Char} (other : tag ≠ format.tag.toList) (noTab : '\t' ∉ tag)
      (single : '\n' ∉ tag) (restSingle : '\n' ∉ text) : PassesOver format (tag ++ '\t' :: text)
  /-- A line that is another tag alone.  A carriage return at its end would not be part of it. -/
  | bare {tag : List Char} (other : tag ≠ format.tag.toList)
      (otherEnded : tag ≠ format.tag.toList ++ ['\r']) (noTab : '\t' ∉ tag)
      (single : '\n' ∉ tag) : PassesOver format tag

end Format

/-- What stands on a line behind the first. -/
inductive Entry where
  /-- A class by its names. -/
  | names (row : List String)
  /-- Anything else. -/
  | aside (line : String)
  deriving DecidableEq, Repr

/-- The row of a class. -/
def Entry.row? : Entry → Option (List String)
  | names row => some row
  | aside _ => none

/-- Columns as a line. -/
def joined (columns : List String) : List Char :=
  ['\t'].intercalate (columns.map String.toList)

namespace Format

variable (format : Format)

/-- The line of an entry. -/
def line : Entry → List Char
  | .names row => joined (format.tag :: row)
  | .aside line => line.toList

/-- A table as a mapping file. -/
def print (namespaces : List String) (entries : List Entry) : String :=
  String.ofList
    (Text.unlines (joined (format.heading ++ namespaces) :: entries.map format.line))

end Format

/-- A name that fits into a column. -/
structure Plain (name : String) : Prop where
  noTab : '\t' ∉ name.toList
  noReturn : '\r' ∉ name.toList
  single : '\n' ∉ name.toList

instance (name : String) : Decidable (Plain name) :=
  decidable_of_iff ('\t' ∉ name.toList ∧ '\r' ∉ name.toList ∧ '\n' ∉ name.toList)
    ⟨fun ⟨noTab, noReturn, single⟩ => ⟨noTab, noReturn, single⟩,
      fun ⟨noTab, noReturn, single⟩ => ⟨noTab, noReturn, single⟩⟩

/-- A table that can be written in a layout: a class has a name for each namespace, names fit into
their columns, and what else stands on a line does not look like a class. -/
structure Printable (format : Format) (namespaces : List String) (entries : List Entry) : Prop where
  spaces : ∀ space ∈ namespaces, Plain space
  length_eq : ∀ row, .names row ∈ entries → row.length = namespaces.length
  names : ∀ row, .names row ∈ entries → ∀ name ∈ row, Plain name
  asides : ∀ line, .aside line ∈ entries → format.PassesOver line.toList

variable {format : Format} {namespaces : List String} {entries : List Entry}
  {cells : List String} {line : List Char}

/-! ## Lines -/

theorem columns_joined (plain : ∀ cell ∈ cells, Plain cell) (nonempty : cells ≠ []) :
    columns (joined cells) = cells.map String.toList := by
  refine Text.split_intercalate ?_ (mt List.map_eq_nil_iff.mp nonempty)
  exact List.forall_mem_map.mpr fun cell mem => (plain cell mem).noTab

theorem dropReturn_joined (plain : ∀ cell ∈ cells, Plain cell) :
    Text.dropReturn (joined cells) = joined cells := by
  refine Text.dropReturn_of_not_mem (Text.not_mem_intercalate (by decide) ?_)
  exact List.forall_mem_map.mpr fun cell mem => (plain cell mem).noReturn

theorem not_mem_joined (plain : ∀ cell ∈ cells, Plain cell) : '\n' ∉ joined cells := by
  refine Text.not_mem_intercalate (by decide) ?_
  exact List.forall_mem_map.mpr fun cell mem => (plain cell mem).single

theorem Format.plain_tag (format : Format) : Plain format.tag := by
  cases format <;> decide

theorem Format.plain_heading (format : Format) : ∀ cell ∈ format.heading, Plain cell := by
  cases format <;> decide

namespace Format.PassesOver

theorem not_mem (passed : format.PassesOver line) : '\n' ∉ line := by
  cases passed with
  | comment single => simpa using single
  | indented single => simpa using single
  | tagged _ _ single restSingle => simp [single, restSingle]
  | bare _ _ _ single => exact single

/-- A class begins with a letter. -/
theorem head?_of_isClass (isClass : (format.layout namespaces).IsClass line) :
    line.head? = some 'C' ∨ line.head? = some 'c' := by
  obtain ⟨names, columns_eq⟩ := isClass_iff.mp isClass
  cases format with
  | v1 => exact .inl (head?_of_columns columns_eq)
  | v2 => exact .inr (head?_of_columns columns_eq)

/-- What begins with another character than the tags is no class. -/
theorem not_isClass_cons {c : Char} (noReturn : c ≠ '\r') (upper : c ≠ 'C') (lower : c ≠ 'c')
    (text : List Char) :
    ¬ (format.layout namespaces).IsClass (Text.dropReturn (c :: text)) := by
  have line_eq : Text.dropReturn (c :: text) = c :: Text.dropReturn text :=
    Text.dropReturn_append_cons noReturn [] text
  rw [line_eq]
  intro isClass
  rcases head?_of_isClass isClass with begins | begins
  · exact upper (Option.some.inj begins)
  · exact lower (Option.some.inj begins)

/-- A line that is passed over is no class, also without the carriage return at its end. -/
theorem not_isClass (passed : format.PassesOver line) :
    ¬ (format.layout namespaces).IsClass (Text.dropReturn line) := by
  cases passed with
  | comment => exact not_isClass_cons (by decide) (by decide) (by decide) _
  | indented => exact not_isClass_cons (by decide) (by decide) (by decide) _
  | tagged other noTab =>
      rw [Text.dropReturn_append_cons (by decide), Layout.IsClass, columns,
        Text.split_append_cons noTab]
      exact fun isClass => other (Option.some.inj isClass)
  | bare other otherEnded noTab =>
      rw [Text.dropReturn]
      split
      · rename_i ended
        obtain ⟨front, rfl⟩ := List.getLast?_eq_some_iff.mp ended
        have noTab : '\t' ∉ front := fun mem => noTab (List.mem_append_left _ mem)
        rw [List.dropLast_concat, Layout.IsClass, columns, Text.split_of_not_mem noTab]
        exact fun isClass => otherEnded (congrArg (· ++ ['\r']) (Option.some.inj isClass))
      · rw [Layout.IsClass, columns, Text.split_of_not_mem noTab]
        exact fun isClass => other (Option.some.inj isClass)

end Format.PassesOver

/-! ## Files -/

theorem map_ofList_toList (names : List String) :
    (names.map String.toList).map String.ofList = names := by
  simp

theorem spaces_layout (format : Format) (namespaces : List String) :
    (format.layout namespaces).spaces = namespaces := by
  exact map_ofList_toList namespaces

namespace Printable

variable (printable : Printable format namespaces entries)
include printable

theorem plain_heading : ∀ cell ∈ format.heading ++ namespaces, Plain cell :=
  List.forall_mem_append.mpr ⟨format.plain_heading, printable.spaces⟩

theorem plain_row {row : List String} (mem : .names row ∈ entries) :
    ∀ cell ∈ format.tag :: row, Plain cell :=
  List.forall_mem_cons.mpr ⟨format.plain_tag, printable.names row mem⟩

/-- The lines that are written are read as they are, but for carriage returns at their ends. -/
theorem lines_print :
    Text.lines (format.print namespaces entries).toList =
      joined (format.heading ++ namespaces) ::
        entries.map fun entry => Text.dropReturn (format.line entry) := by
  rw [Format.print, String.toList_ofList, Text.lines_unlines, List.map_cons,
    dropReturn_joined printable.plain_heading, List.map_map]
  · rfl
  · refine List.forall_mem_cons.mpr ⟨not_mem_joined printable.plain_heading, ?_⟩
    refine List.forall_mem_map.mpr fun entry mem => ?_
    cases entry with
    | names row => exact not_mem_joined (printable.plain_row mem)
    | aside line => exact (printable.asides line mem).not_mem

theorem firstLine_print :
    firstLine (format.print namespaces entries) = joined (format.heading ++ namespaces) := by
  rw [firstLine, printable.lines_print, List.headD_cons]

theorem body_print :
    body (format.print namespaces entries) =
      entries.map fun entry => Text.dropReturn (format.line entry) := by
  rw [body, printable.lines_print, List.tail_cons]

theorem declares :
    Declares (columns (firstLine (format.print namespaces entries)))
      (format.layout namespaces) := by
  have nonempty : format.heading ++ namespaces ≠ [] := by cases format <;> simp [Format.heading]
  rw [printable.firstLine_print, columns_joined printable.plain_heading nonempty, List.map_append]
  cases format with
  | v1 => exact .v1 _
  | v2 => exact .v2 _ _

theorem columns_line {row : List String} (mem : .names row ∈ entries) :
    columns (Text.dropReturn (format.line (.names row))) =
      (format.layout namespaces).tag :: row.map String.toList := by
  have plain := printable.plain_row mem
  rw [Format.line, dropReturn_joined plain, columns_joined plain (List.cons_ne_nil _ _),
    List.map_cons]
  rfl

/-- The rows that are written are the rows that are found. -/
theorem rows_print :
    (format.layout namespaces).rows (body (format.print namespaces entries)) =
      entries.filterMap Entry.row? := by
  rw [printable.body_print, Layout.rows, List.filterMap_map]
  refine List.filterMap_congr fun entry mem => ?_
  cases entry with
  | names row =>
      exact (row?_of_columns (printable.columns_line mem)).trans
        (congrArg some (map_ofList_toList row))
  | aside line => exact row?_of_not_isClass (printable.asides line mem).not_isClass

/-- Nothing is wrong with a file that was written. -/
theorem sound {source target : String} (sourceMem : source ∈ namespaces)
    (targetMem : target ∈ namespaces) :
    Sound (format.print namespaces entries) source target (format.layout namespaces) := by
  refine ⟨printable.declares, List.mem_map_of_mem sourceMem, List.mem_map_of_mem targetMem, ?_⟩
  rw [printable.body_print]
  refine List.forall_mem_map.mpr fun entry mem => ?_
  cases entry with
  | names row =>
      rw [short_iff (printable.columns_line mem)]
      simp [Format.layout, printable.length_eq row mem]
  | aside line => exact fun short => (printable.asides line mem).not_isClass short.1

end Printable

/-- Reading undoes writing, in either layout and with anything between the rows: a class gets the
name in the last row that has its name in the source column and a new one in the target column, and
keeps its own if there is no such row.  A blank name is never replaced. -/
theorem read_print (printable : Printable format namespaces entries) {source target : String}
    (sourceMem : source ∈ namespaces) (targetMem : target ∈ namespaces) :
    ∃ classes, read (format.print namespaces entries) source target = .ok classes ∧
      classes.apply "" = "" ∧
      ∀ name new, classes.apply name = new ↔
        Becomes namespaces source target (entries.filterMap Entry.row?) name new := by
  obtain ⟨classes, success, classes_iff⟩ := (printable.sound sourceMem targetMem).exists_read
  rw [printable.rows_print, spaces_layout] at classes_iff
  refine ⟨classes, success, (classes_iff "" "").mpr (.inr ⟨?_, rfl⟩), classes_iff⟩
  exact fun row _ new renames => renames.old_ne_blank rfl

/-- A table with a comment and a line about a member.  One class is renamed twice, one has no new
name, and one has its own. -/
def entriesSample (member : String) : List Entry :=
  [ .aside "# classes"
  , .names ["p/A", "p/B", "1"]
  , .aside member
  , .names ["p/B", "", "2"]
  , .names ["p/A", "p/C", ""]
  , .names ["p/C", "p/C", "3"] ]

theorem printable_entriesSample {member : String} (passed : format.PassesOver member.toList) :
    Printable format ["a", "b", "n"] (entriesSample member) where
  spaces := by decide
  length_eq := by simp [entriesSample]
  names := by
    intro row mem
    simp only [entriesSample, List.mem_cons, Entry.names.injEq, reduceCtorEq, false_or,
      List.not_mem_nil, or_false] at mem
    rcases mem with rfl | rfl | rfl | rfl <;> decide
  asides := by
    intro line mem
    simp only [entriesSample, List.mem_cons, Entry.aside.injEq, reduceCtorEq, false_or,
      List.not_mem_nil, or_false] at mem
    rcases mem with rfl | rfl
    · exact @Format.PassesOver.comment format " classes".toList (by decide)
    · exact passed

/-- The same map is read from both layouts. -/
theorem read_print_sample :
    let indexed := Format.v1.print ["a", "b", "n"] (entriesSample "FIELD\tp/A\tI\tx\ty\tz")
    let indented := Format.v2.print ["a", "b", "n"] (entriesSample "\tf\tI\tx\ty\tz")
    ∃ first second, read indexed "a" "b" = .ok first ∧ read indented "a" "b" = .ok second ∧
      first.apply "p/A" = "p/C" ∧ second.apply "p/A" = "p/C" ∧
      first.apply "p/B" = "p/B" ∧ second.apply "p/B" = "p/B" ∧
      first.apply "" = "" ∧ second.apply "" = "" := by
  intro indexed indented
  let rows := [["p/A", "p/B", "1"], ["p/B", "", "2"], ["p/A", "p/C", ""], ["p/C", "p/C", "3"]]
  have renamed : Becomes ["a", "b", "n"] "a" "b" rows "p/A" "p/C" := by
    refine .inl ⟨rows.take 2, ["p/A", "p/C", ""], rows.drop 3, rfl, ?_, ?_⟩
    · exact ⟨rfl, rfl, by decide, by decide, by decide⟩
    · exact List.forall_mem_singleton.mpr fun _ renames => absurd renames.source_eq (by decide)
  have kept : Becomes ["a", "b", "n"] "a" "b" rows "p/B" "p/B" := by
    refine .inr ⟨?_, rfl⟩
    simp only [rows, NoneRenames, List.forall_mem_cons]
    refine ⟨?_, ?_, ?_, ?_, fun _ mem => absurd mem List.not_mem_nil⟩
    · exact fun _ renames => absurd renames.source_eq (by decide)
    · exact fun _ renames =>
        renames.new_ne_blank (Option.some.inj (renames.target_eq.symm.trans rfl))
    · exact fun _ renames => absurd renames.source_eq (by decide)
    · exact fun _ renames => absurd renames.source_eq (by decide)
  have tagged : Format.v1.PassesOver "FIELD\tp/A\tI\tx\ty\tz".toList :=
    @Format.PassesOver.tagged .v1 "FIELD".toList "p/A\tI\tx\ty\tz".toList (by decide)
      (by decide) (by decide) (by decide)
  have shifted : Format.v2.PassesOver "\tf\tI\tx\ty\tz".toList :=
    @Format.PassesOver.indented .v2 "f\tI\tx\ty\tz".toList (by decide)
  have sourceMem : "a" ∈ ["a", "b", "n"] := by decide
  have targetMem : "b" ∈ ["a", "b", "n"] := by decide
  obtain ⟨first, firstRead, firstBlank, first_iff⟩ :=
    read_print (printable_entriesSample tagged) sourceMem targetMem
  obtain ⟨second, secondRead, secondBlank, second_iff⟩ :=
    read_print (printable_entriesSample shifted) sourceMem targetMem
  exact ⟨first, second, firstRead, secondRead, (first_iff _ _).mpr renamed,
    (second_iff _ _).mpr renamed, (first_iff _ _).mpr kept, (second_iff _ _).mpr kept,
    firstBlank, secondBlank⟩

end KotlinMetadata.Tiny
