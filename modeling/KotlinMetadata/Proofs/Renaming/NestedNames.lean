import KotlinMetadata.Proofs.Renaming.Composition

/-!
# Names of nested classes, resolved

A class names the classes nested in it by their simple names, which are
understood behind its own.  After a renaming they should be found behind the
new name of the class.  They are, except where the renaming moves the class
and leaves the nested one alone, which then keeps its simple name wherever its
outer class has gone.
-/

namespace KotlinMetadata

namespace Renaming

variable {rename : Renaming} {outer simple new : String}

/-- A nested class keeps its simple name along with its whole name. -/
theorem nestedName_of_unchanged
    (same : rename.className s!"{internalName outer}${simple}" =
      s!"{internalName outer}${simple}") :
    rename.nestedName outer simple = simple :=
  if_pos same

/-- A class renamed to one inside its renamed outer class gets its new simple name exactly if its
outer class does not move around it. -/
theorem nestedName_eq_iff
    (inside : rename.className s!"{internalName outer}${simple}" =
      s!"{rename.className (internalName outer)}${new}") :
    rename.nestedName outer simple = new ↔
      (rename.className s!"{internalName outer}${simple}" = s!"{internalName outer}${simple}" →
        rename.className (internalName outer) = internalName outer) := by
  constructor
  · intro stored same
    rw [nestedName_of_unchanged same] at stored
    rw [same, ← stored] at inside
    exact (nested_inj_left.mp inside).symm
  · exact fun kept => nestedName_of_staysNested ⟨inside, kept⟩

end Renaming

namespace Metadata

/-- Where a nested class or companion is renamed to a class inside the renamed class, its new
simple name is stored, and found behind the new name of the class, exactly if it is not the class
alone that changes its name. -/
theorem nestedNames_renameClass (rename : Renaming) (body : Message .classBody) :
    let outer := internalName (className body)
    List.Forall₂
      (fun simple stored => ∀ new,
        rename.className s!"{outer}${simple}" = s!"{rename.className outer}${new}" →
          let follows := rename.className s!"{outer}${simple}" = s!"{outer}${simple}" →
            rename.className outer = outer
          (stored = new ↔ follows) ∧
            (s!"{rename.className outer}${stored}" = rename.className s!"{outer}${simple}" ↔
              follows))
      ((classBody body).namesOf .nestedName)
      ((classBody (renameClass rename body)).namesOf .nestedName) := by
  intro outer
  have renamed : (classBody (renameClass rename body)).namesOf .nestedName =
      ((classBody body).namesOf .nestedName).map (rename.nestedName (className body)) :=
    namesOf_map rename (classBody body) rfl
  rw [renamed, List.forall₂_map_right_iff, List.forall₂_same]
  intro simple _ new inside
  have stored_iff := Renaming.nestedName_eq_iff inside
  refine ⟨stored_iff, ?_⟩
  rw [inside, Renaming.nested_inj_right]
  rwa [inside] at stored_iff

/-- A class moves with its companion and one of its nested classes, which are found where they have
gone. -/
theorem nestedNames_renameClass_sample :
    let rename := Renaming.ofClassNames fun name =>
      if name = "a/C" then "b/D"
      else if name = "a/C$Companion" then "b/D$Companion"
      else if name = "a/C$In" then "b/D$On"
      else name
    let body := Declaration.classBody ".a/C" [] [] (some "Companion") ["In", "Out"] [] {}
    let outer := internalName (className body)
    let simple := "In"
    let new := "On"
    (classBody (renameClass rename body)).namesOf .nestedName = ["Companion", new, "Out"] ∧
      s!"{rename.className outer}${new}" = rename.className s!"{outer}${simple}" := by
  intro rename body outer simple new
  have names : (classBody body).namesOf .nestedName = ["Companion", simple, "Out"] := by decide
  have renamed : (classBody (renameClass rename body)).namesOf .nestedName =
      ["Companion", new, "Out"] := by decide
  have inside : rename.className s!"{outer}${simple}" = s!"{rename.className outer}${new}" := by
    decide
  have resolved := nestedNames_renameClass rename body
  rw [names, renamed] at resolved
  rcases resolved with _ | ⟨-, _ | ⟨nested, -⟩⟩
  exact ⟨renamed, (nested new inside).2.mpr (by decide)⟩

/-- A class that takes the name of its outer class leaves the class nested in it behind. -/
theorem nestedNames_renameClass_left :
    let rename := Renaming.ofClassNames fun name =>
      if name = "a/Outer$Inner" then "a/Outer" else name
    let body := Declaration.classBody "a/Outer.Inner" [] [] none ["Deep"] [] {}
    let outer := internalName (className body)
    let simple := "Deep"
    let new := "Inner$Deep"
    (classBody body).namesOf .nestedName = [simple] ∧
      rename.className s!"{outer}${simple}" = s!"{rename.className outer}${new}" ∧
      (classBody (renameClass rename body)).namesOf .nestedName = [simple] ∧
      s!"{rename.className outer}${simple}" = "a/Outer$Deep" ∧
      rename.className s!"{outer}${simple}" = "a/Outer$Inner$Deep" := by
  decide

end Metadata

end KotlinMetadata
