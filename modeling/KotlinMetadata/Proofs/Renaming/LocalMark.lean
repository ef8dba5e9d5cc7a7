import KotlinMetadata.Proofs.Names.Bookkeeping
import KotlinMetadata.Proofs.Payload
import KotlinMetadata.Proofs.Renaming.References
import KotlinMetadata.Proofs.Renaming.Spelling
import KotlinMetadata.Tree.Declarations

/-!
# The mark of local classes

A dot in front of a class name in a tree marks a local class, and the string
table lists the numbers of the names that have it.  Renaming keeps the mark out
of the way and puts it back.  But trees also spell dollar signs as dots, and so
a new name with a dollar sign in front may look like that of a local class.
-/

namespace KotlinMetadata

namespace Renaming

/-! ## Dots in front -/

theorem head?_replaceChar_eq_dot_iff {chars : List Char} (noDot : '.' ∉ chars) :
    (replaceChar '$' '.' chars).head? = some '.' ↔ chars.head? = some '$' := by
  cases chars with
  | nil => simp [replaceChar]
  | cons c rest =>
      have other : c ≠ '.' := Ne.symm (List.ne_of_not_mem_cons noDot)
      rw [replaceChar_cons]
      by_cases dollar : c = '$' <;> simp [dollar, other]

theorem head?_dotFirst_eq_dot_iff {chars : List Char} (noDot : '.' ∉ chars) (count : Nat) :
    (dotFirst count chars).head? = some '.' ↔ chars.head? = some '$' ∧ 0 < count := by
  cases chars with
  | nil => cases count <;> simp [dotFirst]
  | cons c rest =>
      have other : c ≠ '.' := Ne.symm (List.ne_of_not_mem_cons noDot)
      cases count with
      | zero => simp [dotFirst, other]
      | succ count =>
          rw [dotFirst]
          by_cases dollar : c = '$' <;> simp [dollar, other]

/-- The form of a new name begins with a dot exactly if the new name begins with a dollar sign that
is turned into one. -/
theorem head?_restore_eq_dot_iff {mapped : List Char} (noDot : '.' ∉ mapped) (bare : List Char) :
    (restore bare mapped).head? = some '.' ↔
      mapped.head? = some '$' ∧ ('$' ∈ bare → '/' ∉ mapped ∧ '.' ∈ (splitPackage bare).2) := by
  rw [restore]
  split
  · rename_i dollar
    change ((splitPackage mapped).1 ++ dotFirst _ (splitPackage mapped).2).head? = _ ↔ _
    by_cases inside : '/' ∈ mapped
    · -- A package comes first, and stays as it is.
      have noDot := (not_mem_parts noDot).1
      cases package : (splitPackage mapped).1 with
      | nil =>
          have simple := splitPackage_append mapped
          rw [package, List.nil_append] at simple
          exact absurd inside (simple ▸ not_mem_splitPackage mapped)
      | cons c rest =>
          rw [package] at noDot
          have other : c ≠ '.' := Ne.symm (List.ne_of_not_mem_cons noDot)
          simp [inside, dollar, other]
    · rw [splitPackage_of_not_mem inside, List.nil_append, head?_dotFirst_eq_dot_iff noDot,
        List.count_pos_iff]
      simp [inside, dollar]
  · rename_i plain
    rw [head?_replaceChar_eq_dot_iff noDot, and_iff_left fun dollar => absurd dollar plain]

/-! ## Marks in trees -/

variable (rename : Renaming)

/-- Whether a tree spells the new name of a class with a dot in front that stands for a dollar
sign. -/
def AddsMark (name : String) : Prop :=
  rename.className (internalName name) ≠ internalName name ∧
    (rename.className (internalName name)).toList.head? = some '$' ∧
    ('$' ∈ (splitLocal name.toList).2 →
      '/' ∉ (rename.className (internalName name)).toList ∧
        '.' ∈ (splitPackage (splitLocal name.toList).2).2)

instance (name : String) : Decidable (rename.AddsMark name) :=
  inferInstanceAs (Decidable (_ ∧ _ ∧ _))

variable {rename}

theorem head?_bareName_eq_dot_iff {name : String}
    (noDot : '.' ∉ (rename.className (internalName name)).toList)
    (unmarked : (splitLocal name.toList).1 = false) :
    (rename.bareName name).head? = some localMarker ↔ rename.AddsMark name := by
  rw [bareName, AddsMark]
  split
  · rename_i same
    have bare := splitLocal_eq name.toList
    rw [unmarked, if_neg Bool.false_ne_true] at bare
    rw [← bare, ← Numbering.isLocalName_iff, isLocalName, unmarked]
    simp [same]
  · rename_i changed
    exact (head?_restore_eq_dot_iff noDot _).trans (and_iff_right changed).symm

/-- Renaming keeps the mark of a local class, and adds one exactly where a dollar sign in front of
the new name is spelled as a dot. -/
theorem isLocalName_treeName_iff {name : String}
    (noDot : '.' ∉ (rename.className (internalName name)).toList) :
    isLocalName (rename.treeName name) = true ↔ isLocalName name = true ∨ rename.AddsMark name := by
  rw [Numbering.isLocalName_iff, toList_treeName, isLocalName]
  cases unmarked : (splitLocal name.toList).1 with
  | true => simp
  | false =>
      rw [if_neg Bool.false_ne_true, head?_bareName_eq_dot_iff noDot unmarked]
      simp

theorem not_mem_internalName (name : String) : '.' ∉ (internalName name).toList := by
  rw [toList_internalName]
  exact not_mem_replaceChar (by decide) _

end Renaming

namespace Payload

/-- The table lists the number of a class name in a message exactly if the name is marked. -/
theorem mem_localNames_numbering_iff {kind : Kind} {message : Message kind}
    (few : (numbering message).names.length < 2147483648) {name : String}
    (mem : (.className, name) ∈ message.names) :
    (numbering message).index (.className name) ∈ (numbering message).table.localNames ↔
      isLocalName name = true :=
  Numbering.mem_localNames_iff few (Numbering.mem_names_ofList.mpr (List.mem_map_of_mem mem))

end Payload

namespace Metadata

open Renaming

/-- A class name in a renamed tree is marked as local exactly if it was, or if it is a new name
whose dollar sign in front is spelled as a dot; the string table that is written lists just the
numbers of these. -/
theorem localNames_map (rename : Renaming)
    (noDots : ∀ name, '.' ∉ name.toList → '.' ∉ (rename.className name).toList) :
    (∀ name, isLocalName (rename.treeName name) = true ↔
      isLocalName name = true ∨ rename.AddsMark name) ∧
    ∀ metadata : Metadata, ∀ before ∈ metadata.tree?, ∀ after ∈ (metadata.map rename).tree?,
      (Payload.numbering after.2).names.length < 2147483648 →
      ∃ table, Payload.readTable (Payload.ofMessage after.2).bytes = .ok table ∧
        List.Forall₂
          (fun old new => old.1 = .className →
            ((Payload.numbering after.2).index (.className new.2) ∈ table.localNames ↔
              isLocalName old.2 = true ∨ new.2 ≠ old.2 ∧ rename.AddsMark old.2))
          before.2.names after.2.names := by
  have marked : ∀ name, isLocalName (rename.treeName name) = true ↔
      isLocalName name = true ∨ rename.AddsMark name :=
    fun name => isLocalName_treeName_iff (noDots _ (not_mem_internalName name))
  refine ⟨marked, fun metadata before beforeMem after afterMem few => ?_⟩
  rw [tree?_map, beforeMem] at afterMem
  obtain rfl := (Option.some.inj afterMem).symm
  refine ⟨_, Payload.readTable_ofMessage (Numbering.short_table_of_few _ few), ?_⟩
  have renamed := Tree.forall₂_names_mapNames (rename.apply metadata.outer) before.2
  rw [List.forall₂_iff_zip] at renamed ⊢
  refine ⟨renamed.1, ?_⟩
  intro old new mem isClass
  have newMem := (List.of_mem_zip mem).2
  rcases old with ⟨role, old⟩
  obtain rfl : role = .className := isClass
  rcases renamed.2 mem with rfl | rfl
  · rw [Payload.mem_localNames_numbering_iff few newMem]
    simp
  · rw [Payload.mem_localNames_numbering_iff few newMem]
    refine (marked old).trans (or_congr_right' fun unmarked => (and_iff_right_of_imp ?_).symm)
    -- A name that is marked now and was not before has changed.
    intro adds (same : rename.treeName old = old)
    have now := (marked old).mpr (.inr adds)
    rw [same] at now
    exact unmarked now

/-- A local class stays one, and a class nested in it does not become one. -/
theorem localNames_map_sample :
    let rename := ofClassNames fun name =>
      if name = "a/C" then "b/$D" else if name = "a/C$In" then "b/$D$On" else name
    let body := Declaration.classBody ".a/C" [] [] none [] ["a/C.In"] {}
    let renamed := renameClass rename body
    body.names = [(.className, ".a/C"), (.className, "a/C.In")] ∧
      renamed.names = [(.className, ".b/.D"), (.className, "b/.D.On")] ∧
      ∃ table, Payload.readTable (Payload.ofMessage renamed).bytes = .ok table ∧
        (Payload.numbering renamed).index (.className ".b/.D") ∈ table.localNames ∧
        (Payload.numbering renamed).index (.className "b/.D.On") ∉ table.localNames := by
  intro rename body renamed
  have noDots : ∀ name, '.' ∉ name.toList → '.' ∉ (rename.className name).toList := by
    intro name absent
    dsimp only [rename, ofClassNames]
    split
    · decide
    · split
      · decide
      · exact absent
  have before : body.names = [(.className, ".a/C"), (.className, "a/C.In")] := by decide
  have after : renamed.names = [(.className, ".b/.D"), (.className, "b/.D.On")] := by decide
  obtain ⟨table, found, listed⟩ :=
    (localNames_map rename noDots).2 (classBody body) ⟨_, body⟩ rfl ⟨_, renamed⟩ rfl (by decide)
  rw [before, after] at listed
  rcases listed with _ | ⟨outer, _ | ⟨nested, -⟩⟩
  exact ⟨before, after, table, found, (outer rfl).mpr (by decide),
    mt (nested rfl).mp (by decide)⟩

/-- A class of no package whose new name begins with a dollar sign becomes a local one. -/
theorem localNames_map_forged :
    let rename := ofClassNames fun name => if name = "Foo" then "$Foo" else name
    let body := Declaration.classBody "Foo" [] [] none [] [] {}
    let renamed := renameClass rename body
    (∀ name, '.' ∉ name.toList → '.' ∉ (rename.className name).toList) ∧
      isLocalName "Foo" = false ∧ rename.treeName "Foo" = ".Foo" ∧ isLocalName ".Foo" = true ∧
      ∃ table, Payload.readTable (Payload.ofMessage renamed).bytes = .ok table ∧
        (Payload.numbering renamed).index (.className ".Foo") ∈ table.localNames := by
  intro rename body renamed
  have written : Payload.readTable (Payload.ofMessage renamed).bytes =
      .ok (Payload.numbering renamed).table :=
    Payload.readTable_ofMessage (Numbering.short_table_of_few _ (by decide))
  refine ⟨fun name absent => ?_, by decide, by decide, by decide, _, written, by decide⟩
  dsimp only [rename, ofClassNames]
  split
  · decide
  · exact absent

end Metadata

end KotlinMetadata
