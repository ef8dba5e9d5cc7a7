import KotlinMetadata.Proofs.Faults
import KotlinMetadata.Proofs.Text.Lines
import KotlinMetadata.Tiny
import Mathlib.Data.List.Basic

/-!
# What a mapping file says

A mapping file is a table of class names with a column for each namespace.
Reading it either stops at the first fault, or finds for each class the last
row that gives it a new name.  Both are told here without going through the
file line by line.
-/

namespace KotlinMetadata.Tiny

/-! ## The table -/

/-- The first line of a file. -/
def firstLine (text : String) : List Char :=
  (Text.lines text.toList).headD []

/-- The lines behind the first. -/
def body (text : String) : List (List Char) :=
  (Text.lines text.toList).tail

/-- The columns of a first line declare a layout. -/
inductive Declares : List (List Char) → Layout → Prop where
  | v1 (namespaces : List (List Char)) :
      Declares ("v1".toList :: namespaces) { tag := "CLASS".toList, namespaces }
  | v2 (third : List Char) (namespaces : List (List Char)) :
      Declares ("tiny".toList :: "2".toList :: third :: namespaces)
        { tag := "c".toList, namespaces }

namespace Layout

variable (layout : Layout)

/-- Whether a line tells of a class: its first column is the tag for classes. -/
def IsClass (line : List Char) : Prop :=
  (columns line).head? = some layout.tag

/-- Whether a line tells of a class but has too few columns. -/
def Short (line : List Char) : Prop :=
  layout.IsClass line ∧ (columns line).length < layout.namespaces.length + 1

instance (line : List Char) : Decidable (layout.IsClass line) :=
  inferInstanceAs (Decidable (_ = _))

instance (line : List Char) : Decidable (layout.Short line) :=
  inferInstanceAs (Decidable (_ ∧ _))

/-- The names of the namespaces. -/
def spaces : List String :=
  layout.namespaces.map String.ofList

/-- The names of the class that a line tells of. -/
def row? (line : List Char) : Option (List String) :=
  if layout.IsClass line then some ((columns line).tail.map String.ofList) else none

/-- The names of the classes that lines tell of. -/
def rows (lines : List (List Char)) : List (List String) :=
  lines.filterMap layout.row?

end Layout

/-- The name that a class has in a namespace, by its row.  Of namespaces of one name the first
counts. -/
def nameIn (namespaces row : List String) (space : String) : Option String :=
  (namespaces.zip row).lookup space

/-- A row gives a class a new name: both names are there, neither is blank, and they differ. -/
structure Renames (namespaces : List String) (source target : String) (row : List String)
    (old new : String) : Prop where
  source_eq : nameIn namespaces row source = some old
  target_eq : nameIn namespaces row target = some new
  old_ne_blank : old ≠ ""
  new_ne_blank : new ≠ ""
  changed : old ≠ new

section

variable (namespaces : List String) (source target : String)

/-- No row gives a class a new name. -/
def NoneRenames (rows : List (List String)) (name : String) : Prop :=
  ∀ row ∈ rows, ∀ new, ¬ Renames namespaces source target row name new

/-- The last row that gives a class a new name gives it this one. -/
def LastRenames (rows : List (List String)) (name new : String) : Prop :=
  ∃ before row after, rows = before ++ row :: after ∧
    Renames namespaces source target row name new ∧
      NoneRenames namespaces source target after name

/-- What becomes of a class by the rows of a table: it keeps its name if none gives it another. -/
def Becomes (rows : List (List String)) (name new : String) : Prop :=
  LastRenames namespaces source target rows name new ∨
    NoneRenames namespaces source target rows name ∧ name = new

/-- What becomes of a class by a map and the rows that are still to be added to it. -/
def BecomesAfter (classes : ClassMap) (rows : List (List String)) (name new : String) : Prop :=
  LastRenames namespaces source target rows name new ∨
    NoneRenames namespaces source target rows name ∧ classes.apply name = new

end

variable {namespaces : List String} {source target : String}

theorem becomesAfter_nil_iff {classes : ClassMap} {name new : String} :
    BecomesAfter namespaces source target classes [] name new ↔ classes.apply name = new := by
  simp [BecomesAfter, LastRenames, NoneRenames]

theorem becomesAfter_empty_iff {rows : List (List String)} {name new : String} :
    BecomesAfter namespaces source target {} rows name new ↔
      Becomes namespaces source target rows name new := by
  rw [BecomesAfter, ClassMap.apply_empty, Becomes]

theorem lastRenames_cons_iff {row : List String} {rows : List (List String)} {name new : String} :
    LastRenames namespaces source target (row :: rows) name new ↔
      LastRenames namespaces source target rows name new ∨
        NoneRenames namespaces source target rows name ∧
          Renames namespaces source target row name new := by
  constructor
  · rintro ⟨before, last, after, rows_eq, renames, none⟩
    cases before with
    | nil =>
        obtain ⟨rfl, rfl⟩ := List.cons.inj rows_eq
        exact .inr ⟨none, renames⟩
    | cons first before =>
        obtain ⟨rfl, rfl⟩ := List.cons.inj rows_eq
        exact .inl ⟨before, last, after, rfl, renames, none⟩
  · rintro (⟨before, last, after, rfl, renames, none⟩ | ⟨none, renames⟩)
    · exact ⟨row :: before, last, after, rfl, renames, none⟩
    · exact ⟨[], row, rows, rfl, renames, none⟩

/-- A row counts where no later one does. -/
theorem becomesAfter_cons_iff {classes : ClassMap} {row : List String} {rows : List (List String)}
    {name new : String} :
    BecomesAfter namespaces source target classes (row :: rows) name new ↔
      LastRenames namespaces source target rows name new ∨
        NoneRenames namespaces source target rows name ∧
          (Renames namespaces source target row name new ∨
            (∀ other, ¬ Renames namespaces source target row name other) ∧
              classes.apply name = new) := by
  have none_iff : NoneRenames namespaces source target (row :: rows) name ↔
      (∀ other, ¬ Renames namespaces source target row name other) ∧
        NoneRenames namespaces source target rows name := List.forall_mem_cons
  rw [BecomesAfter, lastRenames_cons_iff, none_iff]
  tauto

/-! ## Reading the first line -/

variable {text : String} {layout : Layout} {sourceColumn targetColumn : Nat} {classes : ClassMap}
  {number : Nat} {line : List Char} {names : List (List Char)}

theorem ofColumns?_eq_some_iff {columns : List (List Char)} :
    Layout.ofColumns? columns = some layout ↔ Declares columns layout := by
  constructor
  · intro found
    unfold Layout.ofColumns? at found
    split at found
    · cases found
      exact .v1 _
    · cases found
      exact .v2 _ _
    · cases found
  · rintro (⟨namespaces⟩ | ⟨third, namespaces⟩) <;> rfl

theorem position_eq_ok_iff {space : String} :
    layout.position space = .ok sourceColumn ↔
      layout.namespaces.idxOf? space.toList = some sourceColumn := by
  unfold Layout.position
  split <;> rename_i found <;> simp [found]

theorem position_of_not_mem {space : String} (missing : space.toList ∉ layout.namespaces) :
    layout.position space = .error (.unknownNamespace space) := by
  rw [Layout.position, List.idxOf?_eq_none_iff.mpr missing]

theorem exists_position {space : String} (mem : space.toList ∈ layout.namespaces) :
    ∃ column, layout.position space = .ok column := by
  cases found : layout.namespaces.idxOf? space.toList with
  | none => exact absurd mem (List.idxOf?_eq_none_iff.mp found)
  | some column => exact ⟨column, position_eq_ok_iff.mpr found⟩

/-- A namespace has its column among those that a class needs. -/
theorem lt_of_position {space : String} (found : layout.position space = .ok sourceColumn) :
    sourceColumn < layout.namespaces.length :=
  (List.idxOf?_eq_some_iff.mp (position_eq_ok_iff.mp found)).1

/-- The name in a namespace stands in the column of this namespace. -/
theorem nameIn_of_position {space : String} (found : layout.position space = .ok sourceColumn)
    (names : List (List Char)) :
    nameIn layout.spaces (names.map String.ofList) space =
      names[sourceColumn]?.map String.ofList := by
  rw [position_eq_ok_iff] at found
  rw [nameIn, Layout.spaces]
  generalize layout.namespaces = namespaces at found
  induction namespaces generalizing names sourceColumn with
  | nil => simp at found
  | cons first namespaces ih =>
      cases names with
      | nil => simp
      | cons name names =>
          rw [List.idxOf?_cons] at found
          rw [List.map_cons, List.map_cons, List.zip_cons_cons, List.lookup_cons]
          by_cases same : space = String.ofList first
          · subst same
            simp only [String.toList_ofList, BEq.rfl, if_true, Option.some.injEq] at found
            simp [← found]
          · have other : first ≠ space.toList := by
              rintro rfl
              exact same String.ofList_toList.symm
            rw [beq_false_of_ne other, if_neg Bool.false_ne_true, Option.map_eq_some_iff] at found
            obtain ⟨column, found, rfl⟩ := found
            rw [beq_false_of_ne same, List.getElem?_cons_succ]
            exact ih names found

/-! ## Reading a line -/

/-- A line begins as its first column does. -/
theorem head?_of_columns {c : Char} {first : List Char} {others : List (List Char)}
    (columns_eq : columns line = (c :: first) :: others) : line.head? = some c := by
  have line_eq := @Text.intercalate_split '\t' line
  rw [← columns, columns_eq] at line_eq
  rw [← line_eq]
  cases others with
  | nil => rw [List.intercalate_singleton, List.head?_cons]
  | cons next others =>
      rw [List.intercalate_cons_cons, List.cons_append, List.cons_append, List.head?_cons]

theorem isClass_iff : layout.IsClass line ↔ ∃ names, columns line = layout.tag :: names :=
  List.head?_eq_some_iff

/-- A class has a column in front of its names. -/
theorem short_iff (columns_eq : columns line = layout.tag :: names) :
    layout.Short line ↔ names.length < layout.namespaces.length := by
  rw [Layout.Short, columns_eq, List.length_cons, Nat.add_lt_add_iff_right]
  exact and_iff_right (isClass_iff.mpr ⟨names, columns_eq⟩)

variable {heading : List (List Char)}

/-- No comment and no line about a member begins with the tag for classes. -/
theorem Declares.isSkipped_eq_false (declares : Declares heading layout)
    (columns_eq : columns line = layout.tag :: names) : isSkipped line = false := by
  cases declares with
  | v1 =>
      have begins : line.head? = some 'C' := head?_of_columns columns_eq
      simp [isSkipped, begins]
  | v2 =>
      have begins : line.head? = some 'c' := head?_of_columns columns_eq
      simp [isSkipped, begins]

theorem Declares.classNames?_eq_some_iff (declares : Declares heading layout) :
    layout.classNames? line = some names ↔ columns line = layout.tag :: names := by
  constructor
  · intro found
    rw [Layout.classNames?] at found
    split at found
    · cases found
    · split at found
      · rename_i first others columns_eq
        split at found
        · rename_i same
          rw [columns_eq, same, Option.some.inj found]
        · cases found
      · cases found
  · intro columns_eq
    rw [Layout.classNames?, declares.isSkipped_eq_false columns_eq, if_neg Bool.false_ne_true,
      columns_eq]
    exact if_pos rfl

section

variable (declares : Declares heading layout)
include declares

theorem Declares.addLine_of_not_isClass (other : ¬ layout.IsClass line) :
    addLine layout sourceColumn targetColumn classes number line = .ok classes := by
  rw [addLine]
  split
  · rfl
  · rename_i names found
    exact absurd (isClass_iff.mpr ⟨names, declares.classNames?_eq_some_iff.mp found⟩) other

theorem Declares.addLine_of_short (short : layout.Short line) :
    addLine layout sourceColumn targetColumn classes number line =
      .error (.malformed number (layout.namespaces.length + 1)) := by
  obtain ⟨names, columns_eq⟩ := isClass_iff.mp short.1
  rw [addLine, declares.classNames?_eq_some_iff.mpr columns_eq]
  exact dif_pos (.inl ((short_iff columns_eq).mp short))

end

/-- What a row gives can be told from the names in its columns. -/
theorem renames_iff {row : List String} {old new name other : String}
    (sourceName : nameIn namespaces row source = some old)
    (targetName : nameIn namespaces row target = some new) :
    Renames namespaces source target row name other ↔
      (old ≠ "" ∧ new ≠ "" ∧ old ≠ new) ∧ old = name ∧ new = other := by
  constructor
  · rintro ⟨source_eq, target_eq, old_ne_blank, new_ne_blank, changed⟩
    obtain rfl : old = name := Option.some.inj (sourceName.symm.trans source_eq)
    obtain rfl : new = other := Option.some.inj (targetName.symm.trans target_eq)
    exact ⟨⟨old_ne_blank, new_ne_blank, changed⟩, rfl, rfl⟩
  · rintro ⟨⟨old_ne_blank, new_ne_blank, changed⟩, rfl, rfl⟩
    exact ⟨sourceName, targetName, old_ne_blank, new_ne_blank, changed⟩

theorem ofList_eq_blank_iff {chars : List Char} : String.ofList chars = "" ↔ chars = [] := by
  rw [← String.toList_inj, String.toList_ofList]
  rfl

theorem blank_or_same_iff {old new : List Char} :
    (old.isEmpty || new.isEmpty || decide (old = new)) = true ↔
      ¬ (String.ofList old ≠ "" ∧ String.ofList new ≠ "" ∧
        String.ofList old ≠ String.ofList new) := by
  have same : String.ofList old = String.ofList new ↔ old = new := by
    rw [← String.toList_inj, String.toList_ofList, String.toList_ofList]
  simp only [Bool.or_eq_true, List.isEmpty_iff, decide_eq_true_eq, ne_eq, ofList_eq_blank_iff, same]
  tauto

/-- A row that is long enough gives its class the name in the target column, if that is one. -/
theorem Declares.exists_addLine_of_row (declares : Declares heading layout)
    (sourceFound : layout.position source = .ok sourceColumn)
    (targetFound : layout.position target = .ok targetColumn)
    (columns_eq : columns line = layout.tag :: names) (long : ¬ layout.Short line) :
    ∃ after, addLine layout sourceColumn targetColumn classes number line = .ok after ∧
      ∀ name new, after.apply name = new ↔
        Renames layout.spaces source target (names.map String.ofList) name new ∨
          (∀ other, ¬ Renames layout.spaces source target (names.map String.ofList) name other) ∧
            classes.apply name = new := by
  have enough : layout.namespaces.length ≤ names.length :=
    Nat.not_lt.mp (mt (short_iff columns_eq).mpr long)
  have sourceInside := Nat.lt_of_lt_of_le (lt_of_position sourceFound) enough
  have targetInside := Nat.lt_of_lt_of_le (lt_of_position targetFound) enough
  have sourceName := nameIn_of_position sourceFound names
  have targetName := nameIn_of_position targetFound names
  rw [List.getElem?_eq_getElem sourceInside] at sourceName
  rw [List.getElem?_eq_getElem targetInside] at targetName
  have fits : ¬ (names.length < layout.namespaces.length ∨ names.length ≤ sourceColumn) := by
    omega
  simp only [renames_iff sourceName targetName]
  rw [addLine, declares.classNames?_eq_some_iff.mpr columns_eq]
  dsimp only
  rw [dif_neg fits, List.getD_eq_getElem?_getD, List.getElem?_eq_getElem targetInside,
    Option.getD_some]
  generalize names[sourceColumn] = old
  generalize names[targetColumn] = new
  by_cases gives : String.ofList old ≠ "" ∧ String.ofList new ≠ "" ∧
      String.ofList old ≠ String.ofList new
  · rw [if_neg (mt blank_or_same_iff.mp (not_not_intro gives))]
    refine ⟨_, rfl, fun name other => ?_⟩
    rw [ClassMap.apply_insert]
    by_cases same : String.ofList old = name
    · rw [if_pos same]
      constructor
      · exact fun result => .inl ⟨gives, same, result⟩
      · rintro (⟨_, _, result⟩ | ⟨none, _⟩)
        · exact result
        · exact absurd ⟨gives, same, rfl⟩ (none _)
    · rw [if_neg same]
      constructor
      · exact fun result => .inr ⟨fun _ renames => same renames.2.1, result⟩
      · rintro (⟨_, same', _⟩ | ⟨_, result⟩)
        · exact absurd same' same
        · exact result
  · rw [if_pos (blank_or_same_iff.mpr gives)]
    refine ⟨_, rfl, fun name other => ?_⟩
    constructor
    · exact fun result => .inr ⟨fun _ renames => gives renames.1, result⟩
    · rintro (⟨given, _⟩ | ⟨_, result⟩)
      · exact absurd given gives
      · exact result

/-! ## Reading the lines behind the first -/

variable {lines : List (List Char)}

theorem row?_of_not_isClass (other : ¬ layout.IsClass line) : layout.row? line = none :=
  if_neg other

theorem row?_of_columns (columns_eq : columns line = layout.tag :: names) :
    layout.row? line = some (names.map String.ofList) := by
  rw [Layout.row?, if_pos (isClass_iff.mpr ⟨names, columns_eq⟩), columns_eq, List.tail_cons]

section

variable (declares : Declares heading layout)
  (sourceFound : layout.position source = .ok sourceColumn)
  (targetFound : layout.position target = .ok targetColumn)
include declares sourceFound targetFound

/-- Adding a line that is not too short does not change what becomes of a class in the end. -/
theorem Declares.exists_addLine (long : ¬ layout.Short line) (lines : List (List Char)) :
    ∃ after, addLine layout sourceColumn targetColumn classes number line = .ok after ∧
      ∀ name new,
        BecomesAfter layout.spaces source target after (layout.rows lines) name new ↔
          BecomesAfter layout.spaces source target classes (layout.rows (line :: lines))
            name new := by
  by_cases isClass : layout.IsClass line
  · obtain ⟨names, columns_eq⟩ := isClass_iff.mp isClass
    obtain ⟨after, added, after_iff⟩ :=
      declares.exists_addLine_of_row sourceFound targetFound columns_eq long
    refine ⟨after, added, fun name new => ?_⟩
    rw [Layout.rows, Layout.rows, List.filterMap_cons_some (row?_of_columns columns_eq),
      becomesAfter_cons_iff, BecomesAfter, after_iff]
  · rw [Layout.rows, Layout.rows, List.filterMap_cons_none (row?_of_not_isClass isClass)]
    exact ⟨classes, declares.addLine_of_not_isClass isClass, fun _ _ => Iff.rfl⟩

/-- Lines of which none is too short are read to their end. -/
theorem Declares.exists_addLines (long : ∀ line ∈ lines, ¬ layout.Short line) :
    ∃ after, addLines layout sourceColumn targetColumn classes number lines = .ok after ∧
      ∀ name new, after.apply name = new ↔
        BecomesAfter layout.spaces source target classes (layout.rows lines) name new := by
  induction lines generalizing classes number with
  | nil => exact ⟨classes, rfl, fun name new => becomesAfter_nil_iff.symm⟩
  | cons line lines ih =>
      obtain ⟨here, later⟩ := List.forall_mem_cons.mp long
      obtain ⟨between, added, kept⟩ :=
        declares.exists_addLine sourceFound targetFound here lines
      obtain ⟨after, read, after_iff⟩ := ih later
      exact ⟨after, bind_eq_ok_iff.mpr ⟨between, added, read⟩,
        fun name new => (after_iff name new).trans (kept name new)⟩

/-- Reading stops at the first line that is too short. -/
theorem Declares.addLines_of_short {before : List (List Char)}
    (long : ∀ line ∈ before, ¬ layout.Short line) (short : layout.Short line) :
    addLines layout sourceColumn targetColumn classes number (before ++ line :: lines) =
      .error (.malformed (number + before.length) (layout.namespaces.length + 1)) := by
  induction before generalizing classes number with
  | nil =>
      rw [List.nil_append, addLines, declares.addLine_of_short short]
      rfl
  | cons first before ih =>
      obtain ⟨here, later⟩ := List.forall_mem_cons.mp long
      obtain ⟨between, added, _⟩ := declares.exists_addLine sourceFound targetFound here []
      have shifted : number + 1 + before.length = number + (first :: before).length := by
        rw [List.length_cons]
        omega
      rw [List.cons_append, addLines, added, ← shifted]
      exact ih later

end

/-! ## Reading a file -/

/-- What is wrong with a file when it is asked for two namespaces. -/
inductive Fault (text source target : String) : MappingError → Prop where
  /-- The first line declares no layout. -/
  | unsupportedFormat (undeclared : ∀ layout, ¬ Declares (columns (firstLine text)) layout) :
      Fault text source target (.unsupportedFormat (String.ofList (firstLine text)))
  /-- There is no such namespace as the one to rename from. -/
  | unknownSource {layout : Layout} (declares : Declares (columns (firstLine text)) layout)
      (missing : source.toList ∉ layout.namespaces) :
      Fault text source target (.unknownNamespace source)
  /-- There is no such namespace as the one to rename to. -/
  | unknownTarget {layout : Layout} (declares : Declares (columns (firstLine text)) layout)
      (declared : source.toList ∈ layout.namespaces)
      (missing : target.toList ∉ layout.namespaces) :
      Fault text source target (.unknownNamespace target)
  /-- A line tells of a class and has too few columns, and none before it is like that.  The line
  behind the first has number two. -/
  | malformed {layout : Layout} {before after : List (List Char)} {line : List Char}
      (declares : Declares (columns (firstLine text)) layout)
      (sourceDeclared : source.toList ∈ layout.namespaces)
      (targetDeclared : target.toList ∈ layout.namespaces)
      (lines_eq : body text = before ++ line :: after)
      (long : ∀ line ∈ before, ¬ layout.Short line) (short : layout.Short line) :
      Fault text source target
        (.malformed (before.length + 2) (layout.namespaces.length + 1))

/-- Nothing is wrong with a file of a given layout when it is asked for two namespaces. -/
structure Sound (text source target : String) (layout : Layout) : Prop where
  declares : Declares (columns (firstLine text)) layout
  sourceDeclared : source.toList ∈ layout.namespaces
  targetDeclared : target.toList ∈ layout.namespaces
  long : ∀ line ∈ body text, ¬ layout.Short line

theorem layoutOf_of_declares (declares : Declares (columns line) layout) :
    layoutOf line = .ok layout := by
  rw [layoutOf, ofColumns?_eq_some_iff.mpr declares]

theorem layoutOf_of_undeclared (undeclared : ∀ layout, ¬ Declares (columns line) layout) :
    layoutOf line = .error (.unsupportedFormat (String.ofList line)) := by
  rw [layoutOf]
  split
  · rename_i layout found
    exact absurd (ofColumns?_eq_some_iff.mp found) (undeclared layout)
  · rfl

theorem read_eq (text source target : String) :
    read text source target = (do
      let layout ← layoutOf (firstLine text)
      let sourceColumn ← layout.position source
      let targetColumn ← layout.position target
      addLines layout sourceColumn targetColumn {} 2 (body text)) :=
  rfl

/-- Where a layout is declared, the namespaces come next. -/
theorem read_of_declares (declares : Declares (columns (firstLine text)) layout)
    (source target : String) :
    read text source target = (do
      let sourceColumn ← layout.position source
      let targetColumn ← layout.position target
      addLines layout sourceColumn targetColumn {} 2 (body text)) := by
  rw [read_eq, layoutOf_of_declares declares]
  rfl

/-- Where the namespaces are declared, the rest of the file decides. -/
theorem read_of_positions (declares : Declares (columns (firstLine text)) layout)
    (sourceFound : layout.position source = .ok sourceColumn)
    (targetFound : layout.position target = .ok targetColumn) :
    read text source target = addLines layout sourceColumn targetColumn {} 2 (body text) := by
  rw [read_of_declares declares, sourceFound, targetFound]
  rfl

/-- A sound file is read, and gives each class the name that the last row for it has. -/
theorem Sound.exists_read (sound : Sound text source target layout) :
    ∃ classes, read text source target = .ok classes ∧
      ∀ name new, classes.apply name = new ↔
        Becomes layout.spaces source target (layout.rows (body text)) name new := by
  obtain ⟨sourceColumn, sourceFound⟩ := exists_position sound.sourceDeclared
  obtain ⟨targetColumn, targetFound⟩ := exists_position sound.targetDeclared
  simp only [read_of_positions sound.declares sourceFound targetFound, ← becomesAfter_empty_iff]
  exact sound.declares.exists_addLines sourceFound targetFound sound.long

/-- What is wrong with a file is what reading it reports. -/
theorem read_of_fault {fault : MappingError} (wrong : Fault text source target fault) :
    read text source target = .error fault := by
  cases wrong with
  | unsupportedFormat undeclared =>
      rw [read_eq, layoutOf_of_undeclared undeclared]
      rfl
  | unknownSource declares missing =>
      rw [read_of_declares declares, position_of_not_mem missing]
      rfl
  | unknownTarget declares declared missing =>
      obtain ⟨sourceColumn, sourceFound⟩ := exists_position declared
      rw [read_of_declares declares, sourceFound, position_of_not_mem missing]
      rfl
  | malformed declares sourceDeclared targetDeclared lines_eq long short =>
      obtain ⟨sourceColumn, sourceFound⟩ := exists_position sourceDeclared
      obtain ⟨targetColumn, targetFound⟩ := exists_position targetDeclared
      rw [read_of_positions declares sourceFound targetFound, lines_eq,
        declares.addLines_of_short sourceFound targetFound long short, Nat.add_comm]

/-- Either something is wrong with a file or nothing is. -/
theorem exists_fault_or_sound (text source target : String) :
    (∃ fault, Fault text source target fault) ∨ ∃ layout, Sound text source target layout := by
  by_cases declared : ∃ layout, Declares (columns (firstLine text)) layout
  case neg => exact .inl ⟨_, .unsupportedFormat (not_exists.mp declared)⟩
  case pos =>
    obtain ⟨layout, declares⟩ := declared
    by_cases sourceDeclared : source.toList ∈ layout.namespaces
    case neg => exact .inl ⟨_, .unknownSource declares sourceDeclared⟩
    case pos =>
      by_cases targetDeclared : target.toList ∈ layout.namespaces
      case neg => exact .inl ⟨_, .unknownTarget declares sourceDeclared targetDeclared⟩
      case pos =>
        cases first : (body text).find? fun line => layout.Short line with
        | none =>
            refine .inr ⟨layout, declares, sourceDeclared, targetDeclared, ?_⟩
            simpa using List.find?_eq_none.mp first
        | some line =>
            obtain ⟨short, before, after, lines_eq, long⟩ :=
              List.find?_eq_some_iff_append.mp first
            exact .inl ⟨_, .malformed declares sourceDeclared targetDeclared lines_eq
              (by simpa using long) (by simpa using short)⟩

theorem read_eq_error_iff {fault : MappingError} :
    read text source target = .error fault ↔ Fault text source target fault := by
  constructor
  · intro failed
    rcases exists_fault_or_sound text source target with ⟨other, wrong⟩ | ⟨layout, sound⟩
    · obtain rfl := Except.error.inj (failed.symm.trans (read_of_fault wrong))
      exact wrong
    · obtain ⟨classes, success, _⟩ := sound.exists_read
      cases failed.symm.trans success
  · exact read_of_fault

theorem exists_read_eq_ok_iff :
    (∃ classes, read text source target = .ok classes) ↔
      ∃ layout, Sound text source target layout := by
  constructor
  · rintro ⟨classes, success⟩
    rcases exists_fault_or_sound text source target with ⟨fault, wrong⟩ | sound
    · cases success.symm.trans (read_of_fault wrong)
    · exact sound
  · rintro ⟨layout, sound⟩
    obtain ⟨classes, success, _⟩ := sound.exists_read
    exact ⟨classes, success⟩

/-- A row that is accepted has the columns of both namespaces. -/
theorem lt_length_of_addLine {after : ClassMap}
    (sourceFound : layout.position source = .ok sourceColumn)
    (targetFound : layout.position target = .ok targetColumn)
    (row : layout.classNames? line = some names)
    (accepted : addLine layout sourceColumn targetColumn classes number line = .ok after) :
    sourceColumn < names.length ∧ targetColumn < names.length := by
  rw [addLine, row] at accepted
  dsimp only at accepted
  by_cases short : names.length < layout.namespaces.length ∨ names.length ≤ sourceColumn
  · rw [dif_pos short] at accepted
    cases accepted
  · have enough : layout.namespaces.length ≤ names.length := by omega
    exact ⟨Nat.lt_of_lt_of_le (lt_of_position sourceFound) enough,
      Nat.lt_of_lt_of_le (lt_of_position targetFound) enough⟩

/-- Reading a file reports what is wrong with it, the first fault if there are several, and succeeds
exactly if nothing is wrong.  Rows that it accepts have all the columns that it looks at. -/
theorem read_exactly (text source target : String) :
    (∀ fault, read text source target = .error fault ↔ Fault text source target fault) ∧
      ((∃ classes, read text source target = .ok classes) ↔
        ∃ layout, Sound text source target layout) ∧
      ∀ (layout : Layout) (sourceColumn targetColumn : Nat),
        layout.position source = .ok sourceColumn → layout.position target = .ok targetColumn →
          ∀ classes number line names after, layout.classNames? line = some names →
            addLine layout sourceColumn targetColumn classes number line = .ok after →
              sourceColumn < names.length ∧ targetColumn < names.length :=
  ⟨fun _ => read_eq_error_iff, exists_read_eq_ok_iff,
    fun _ _ _ sourceFound targetFound _ _ _ _ _ row accepted =>
      lt_length_of_addLine sourceFound targetFound row accepted⟩

/-- Lines that are skipped count, and what follows a row that is too short does not matter. -/
theorem read_exactly_sample :
    let layout : Layout := { tag := ['c'], namespaces := [['a'], ['b']] }
    let line := "c\tx\ty".toList
    let classes : ClassMap := {}
    read "tiny\t2\t0\ta\tb\n# z\nc\tx\ty\r\n\tc\nc\tz\nc\n" "b" "a" =
        .error (.malformed 5 3) ∧
      (∃ classes, read "tiny\t2\t0\ta\tb\n# z\nc\tx\ty\r\n\tc" "b" "a" = .ok classes) ∧
      layout.position "b" = .ok 1 ∧ layout.position "a" = .ok 0 ∧
      layout.classNames? line = some [['x'], ['y']] ∧
      addLine layout 1 0 classes 3 line = .ok (classes.insert "y" "x") ∧ 1 < 2 ∧ 0 < 2 := by
  intro layout line classes
  have declares : Declares (columns "tiny\t2\t0\ta\tb".toList) layout :=
    .v2 ['0'] [['a'], ['b']]
  obtain ⟨fails, _, inside⟩ :=
    read_exactly "tiny\t2\t0\ta\tb\n# z\nc\tx\ty\r\n\tc\nc\tz\nc\n" "b" "a"
  obtain ⟨_, succeeds, _⟩ :=
    read_exactly "tiny\t2\t0\ta\tb\n# z\nc\tx\ty\r\n\tc" "b" "a"
  have first : layout.position "b" = .ok 1 := by decide
  have second : layout.position "a" = .ok 0 := by decide
  have row : layout.classNames? line = some [['x'], ['y']] := by decide
  have accepted : addLine layout 1 0 classes 3 line = .ok (classes.insert "y" "x") := rfl
  refine ⟨(fails _).mpr ?_, succeeds.mpr ⟨layout, declares, by decide, by decide, by decide⟩,
    first, second, row, accepted, inside layout 1 0 first second classes 3 line _ _ row accepted⟩
  exact @Fault.malformed _ _ _ layout ["# z".toList, line, "\tc".toList] ["c".toList]
    "c\tz".toList declares (by decide) (by decide) (by decide) (by decide) (by decide)

end KotlinMetadata.Tiny
