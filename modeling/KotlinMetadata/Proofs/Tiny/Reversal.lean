import KotlinMetadata.Proofs.Tiny.Reading
import Mathlib.Data.List.Nodup

/-!
# Mapping files read the other way round

A mapping file can be read from either of two namespaces to the other.  If
neither column has a blank or repeated name, the two maps undo each other on
the names in the table.  A name may stand in both columns, in different rows:
each column is looked at for itself.
-/

namespace KotlinMetadata.Tiny

/-- The names that the rows of a table have in a namespace. -/
def column (namespaces : List String) (rows : List (List String)) (space : String) :
    List (Option String) :=
  rows.map fun row => nameIn namespaces row space

variable {namespaces : List String} {rows : List (List String)} {row : List String}
  {text source target old new : String} {layout other : Layout} {heading : List (List Char)}

/-- A row that has its name in the source column alone decides what becomes of this name. -/
theorem becomes_of_nodup (mem : row ∈ rows) (distinct : (column namespaces rows source).Nodup)
    (sourceName : nameIn namespaces row source = some old)
    (targetName : nameIn namespaces row target = some new)
    (oldNamed : old ≠ "") (newNamed : new ≠ "") :
    Becomes namespaces source target rows old new := by
  obtain ⟨before, after, rfl⟩ := List.append_of_mem mem
  rw [column, List.map_append, List.map_cons, List.nodup_middle, List.nodup_cons,
    ← List.map_append, sourceName] at distinct
  have elsewhere : ∀ row ∈ before ++ after, ∀ name,
      ¬ Renames namespaces source target row old name := by
    intro row rowMem name renames
    exact distinct.1 (List.mem_map.mpr ⟨row, rowMem, renames.source_eq⟩)
  by_cases same : old = new
  · refine .inr ⟨fun other otherMem name renames => ?_, same⟩
    rcases List.mem_append.mp otherMem with front | behind
    · exact elsewhere other (List.mem_append_left after front) name renames
    · rcases List.mem_cons.mp behind with rfl | behind
      · -- The row itself gives the name that is there already.
        refine renames.changed (same.trans (Option.some.inj ?_))
        exact targetName.symm.trans renames.target_eq
      · exact elsewhere other (List.mem_append_right before behind) name renames
  · refine .inl ⟨before, row, after, rfl, ⟨sourceName, targetName, oldNamed, newNamed, same⟩, ?_⟩
    exact fun other otherMem => elsewhere other (List.mem_append_right before otherMem)

theorem Declares.unique (declares : Declares heading layout)
    (otherDeclares : Declares heading other) : layout = other :=
  Option.some.inj ((ofColumns?_eq_some_iff.mpr declares).symm.trans
    (ofColumns?_eq_some_iff.mpr otherDeclares))

/-- Whether a file is sound does not depend on the direction in which it is read. -/
theorem Sound.swap (sound : Sound text source target layout) : Sound text target source layout :=
  ⟨sound.declares, sound.targetDeclared, sound.sourceDeclared, sound.long⟩

/-- A row of a sound file has a name in each namespace. -/
theorem Sound.exists_nameIn (sound : Sound text source target layout)
    (mem : row ∈ layout.rows (body text)) {space : String}
    (declared : space.toList ∈ layout.namespaces) :
    ∃ name, nameIn layout.spaces row space = some name := by
  rw [Layout.rows, List.mem_filterMap] at mem
  obtain ⟨line, lineMem, row_eq⟩ := mem
  have isClass : layout.IsClass line := by
    by_contra other
    rw [row?_of_not_isClass other] at row_eq
    cases row_eq
  obtain ⟨names, columns_eq⟩ := isClass_iff.mp isClass
  obtain rfl := Option.some.inj ((row?_of_columns columns_eq).symm.trans row_eq)
  obtain ⟨position, found⟩ := exists_position declared
  have enough : layout.namespaces.length ≤ names.length :=
    Nat.not_lt.mp (mt (short_iff columns_eq).mpr (sound.long line lineMem))
  have inside : position < names.length := Nat.lt_of_lt_of_le (lt_of_position found) enough
  rw [nameIn_of_position found, List.getElem?_eq_getElem inside]
  exact ⟨_, rfl⟩

/-- If the classes of a file have names that are neither blank nor repeated in both namespaces, the
file can be read in both directions, and each of the two maps undoes the other. -/
theorem read_reversed {forth : ClassMap} (declares : Declares (columns (firstLine text)) layout)
    (success : read text source target = .ok forth)
    (sourcesNamed : some "" ∉ column layout.spaces (layout.rows (body text)) source)
    (sourcesDistinct : (column layout.spaces (layout.rows (body text)) source).Nodup)
    (targetsNamed : some "" ∉ column layout.spaces (layout.rows (body text)) target)
    (targetsDistinct : (column layout.spaces (layout.rows (body text)) target).Nodup) :
    ∃ back, read text target source = .ok back ∧
      ∀ row ∈ layout.rows (body text), ∃ old new,
        nameIn layout.spaces row source = some old ∧ nameIn layout.spaces row target = some new ∧
          forth.apply old = new ∧ back.apply new = old ∧
            back.apply (forth.apply old) = old ∧ forth.apply (back.apply new) = new := by
  obtain ⟨same, sound⟩ := exists_read_eq_ok_iff.mp ⟨forth, success⟩
  obtain rfl := declares.unique sound.declares
  obtain ⟨_, again, forth_iff⟩ := sound.exists_read
  obtain rfl := Except.ok.inj (success.symm.trans again)
  obtain ⟨back, reversed, back_iff⟩ := sound.swap.exists_read
  refine ⟨back, reversed, fun row mem => ?_⟩
  obtain ⟨old, sourceName⟩ := sound.exists_nameIn mem sound.sourceDeclared
  obtain ⟨new, targetName⟩ := sound.exists_nameIn mem sound.targetDeclared
  have oldNamed : old ≠ "" := by
    rintro rfl
    exact sourcesNamed (List.mem_map.mpr ⟨row, mem, sourceName⟩)
  have newNamed : new ≠ "" := by
    rintro rfl
    exact targetsNamed (List.mem_map.mpr ⟨row, mem, targetName⟩)
  have there : forth.apply old = new := (forth_iff old new).mpr
    (becomes_of_nodup mem sourcesDistinct sourceName targetName oldNamed newNamed)
  have andBack : back.apply new = old := (back_iff new old).mpr
    (becomes_of_nodup mem targetsDistinct targetName sourceName newNamed oldNamed)
  refine ⟨old, new, sourceName, targetName, there, andBack, ?_, ?_⟩
  · rw [there, andBack]
  · rw [andBack, there]

/-- Two classes swap their names, and a third one keeps its own. -/
theorem read_reversed_sample :
    let text := "v1\ta\tn\tb\nCLASS\tx\t1\ty\nFIELD\tx\nCLASS\ty\t2\tx\nCLASS\tz\t3\tz\n"
    ∃ forth back, read text "a" "b" = .ok forth ∧ read text "b" "a" = .ok back ∧
      forth.apply "x" = "y" ∧ forth.apply "y" = "x" ∧ back.apply "x" = "y" ∧
        back.apply (forth.apply "z") = "z" := by
  intro text
  let layout : Layout := { tag := "CLASS".toList, namespaces := [['a'], ['n'], ['b']] }
  have first : columns (firstLine text) = ["v1".toList, ['a'], ['n'], ['b']] := by decide
  have declares : Declares (columns (firstLine text)) layout := first ▸ .v1 [['a'], ['n'], ['b']]
  have rows_eq : layout.rows (body text) = [["x", "1", "y"], ["y", "2", "x"], ["z", "3", "z"]] := by
    decide
  obtain ⟨forth, success⟩ := exists_read_eq_ok_iff.mpr
    ⟨layout, (⟨declares, by decide, by decide, by decide⟩ : Sound text "a" "b" layout)⟩
  obtain ⟨back, reversed, undone⟩ := read_reversed declares success (by rw [rows_eq]; decide)
    (by rw [rows_eq]; decide) (by rw [rows_eq]; decide) (by rw [rows_eq]; decide)
  rw [rows_eq] at undone
  simp only [List.forall_mem_cons] at undone
  obtain ⟨⟨_, _, ⟨⟩, ⟨⟩, xForth, _⟩, ⟨_, _, ⟨⟩, ⟨⟩, yForth, xBack, _⟩,
    ⟨_, _, ⟨⟩, ⟨⟩, _, _, zUndone, _⟩, _⟩ := undone
  exact ⟨forth, back, success, reversed, xForth, yForth, xBack, zUndone⟩

end KotlinMetadata.Tiny
