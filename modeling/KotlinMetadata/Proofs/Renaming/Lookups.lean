import KotlinMetadata.Proofs.Renaming.Composition

/-!
# What a renaming is asked

A renaming given by class names is asked about the names that metadata refers
to, each by its internal name, and about nothing else.  Two renamings with the
same answers to these questions do the same, so a new name for any other class
makes no difference.
-/

namespace KotlinMetadata

namespace Descriptor

/-- The names that stand in references, in order.  Inside a reference, `open?` holds its name so far
in reverse; one that does not end has no name. -/
def references : Option (List Char) → List Char → List (List Char)
  | none, [] => []
  | none, c :: rest => if c = 'L' then references (some []) rest else references none rest
  | some _, [] => []
  | some name, c :: rest =>
      if c = ';' then name.reverse :: references none rest else references (some (c :: name)) rest

/-- The class names in a descriptor. -/
def classNames (descriptor : String) : List String :=
  (references none descriptor.toList).map String.ofList

/-- What becomes of a descriptor depends on the names in its references alone. -/
theorem mapChars_congr {rename other : List Char → List Char} {open? : Option (List Char)}
    {chars : List Char} (agree : ∀ name ∈ references open? chars, rename name = other name) :
    mapChars rename open? chars = mapChars other open? chars := by
  induction chars generalizing open? with
  | nil => cases open? <;> rfl
  | cons c rest ih =>
      cases open? with
      | none =>
          rw [references] at agree
          rw [mapChars, mapChars]
          by_cases opens : c = 'L'
          · rw [if_pos opens] at agree
            rw [if_pos opens, if_pos opens, ih agree]
          · rw [if_neg opens] at agree
            rw [if_neg opens, if_neg opens, ih agree]
      | some name =>
          rw [references] at agree
          rw [mapChars, mapChars]
          by_cases ends : c = ';'
          · rw [if_pos ends] at agree
            rcases List.forall_mem_cons.mp agree with ⟨here, later⟩
            rw [if_pos ends, if_pos ends, here, ih later]
          · rw [if_neg ends] at agree
            rw [if_neg ends, if_neg ends, ih agree]

theorem mapClassNames_congr {first second : String → String} {descriptor : String}
    (agree : ∀ name ∈ classNames descriptor, first name = second name) :
    mapClassNames first descriptor = mapClassNames second descriptor := by
  refine congrArg String.ofList (mapChars_congr fun name mem => ?_)
  rw [agree _ (List.mem_map_of_mem mem)]

end Descriptor

namespace ClassMap

theorem apply_insert_of_ne {source name : String} (other : source ≠ name) (classes : ClassMap)
    (target : String) : (classes.insert source target).apply name = classes.apply name := by
  rw [apply_insert, if_neg other]

theorem ofList_append_singleton (known : List (String × String)) (pair : String × String) :
    ofList (known ++ [pair]) = (ofList known).insert pair.1 pair.2 := by
  rw [ofList, List.foldl_append]
  rfl

/-- New names for some classes leave the others alone. -/
theorem apply_ofList_append {known added : List (String × String)} {name : String}
    (other : ∀ pair ∈ added, pair.1 ≠ name) :
    (ofList (known ++ added)).apply name = (ofList known).apply name := by
  induction added generalizing known with
  | nil => rw [List.append_nil]
  | cons pair rest ih =>
      rcases List.forall_mem_cons.mp other with ⟨here, later⟩
      rw [List.append_cons, ih later, ofList_append_singleton, apply_insert_of_ne here]

end ClassMap

namespace Renaming

variable {first second : String → String}

theorem treeName_congr {name : String}
    (agree : first (internalName name) = second (internalName name)) :
    (ofClassNames first).treeName name = (ofClassNames second).treeName name := by
  unfold treeName
  dsimp only [ofClassNames]
  rw [agree]

theorem nestedName_congr {outer simple : String}
    (outerAgree : first (internalName outer) = second (internalName outer))
    (agree : first s!"{internalName outer}${simple}" = second s!"{internalName outer}${simple}") :
    (ofClassNames first).nestedName outer simple =
      (ofClassNames second).nestedName outer simple := by
  unfold nestedName
  dsimp only [ofClassNames]
  rw [agree, outerAgree]

end Renaming

namespace Metadata

open Renaming

variable {metadata : Metadata} {first second : String → String}

/-- The internal names that a renaming of classes is asked about: those of the classes referred to
outside the arguments of annotations, origins and facades, the names in descriptors, and nested
classes behind the name of the class that they are nested in.  This class itself is among the
classes referred to. -/
def lookups (metadata : Metadata) : List String :=
  metadata.classReferences.map internalName ++
    metadata.namesOf .internalName ++
    metadata.facade?.toList ++
    (metadata.namesOf .methodDescriptor ++
      metadata.namesOf .fieldDescriptor).flatMap Descriptor.classNames ++
    (metadata.namesOf .nestedName).map fun simple => s!"{internalName metadata.outer}${simple}"

/-- A class refers to itself by its name. -/
theorem className_mem_classReferences : ∀ body : Message .classBody,
    className body ∈ (classBody body).classReferences
  | .message (.cons flags (.cons ids (.cons (.exactly (.leaf _ _)) _))) _ => by
      refine mem_classReferences (List.mem_flatMap.mpr ⟨_, List.mem_cons_self, ?_⟩)
      exact List.mem_append_right flags.outerNames
        (List.mem_append_right ids.outerNames List.mem_cons_self)

/-- Renamings that agree on what they are asked agree on every name that they reach. -/
theorem apply_congr_of_lookups (agree : ∀ name ∈ metadata.lookups, first name = second name) :
    ∀ name ∈ metadata.tree?.toList.flatMap fun tree => tree.2.outerNames,
      (ofClassNames first).apply metadata.outer name.1 name.2 =
        (ofClassNames second).apply metadata.outer name.1 name.2 := by
  simp only [lookups, List.forall_mem_append, List.forall_mem_map, List.forall_mem_flatMap]
    at agree
  obtain ⟨⟨⟨⟨classes, origins⟩, _⟩, methods, fields⟩, nested⟩ := agree
  rintro ⟨role, text⟩ mem
  cases role with
  | plain => rfl
  | className => exact treeName_congr (classes text (mem_classReferences mem))
  | nestedName =>
      have mem := mem_namesOf rfl mem
      rcases exists_classBody_of_mem_namesOf mem with ⟨body, rfl⟩
      exact nestedName_congr (classes _ (className_mem_classReferences body)) (nested text mem)
  | internalName => exact origins text (mem_namesOf rfl mem)
  | methodDescriptor =>
      exact Descriptor.mapClassNames_congr (methods text (mem_namesOf rfl mem))
  | fieldDescriptor =>
      exact Descriptor.mapClassNames_congr (fields text (mem_namesOf rfl mem))

/-- What becomes of metadata depends on what becomes of the names that it reaches alone. -/
theorem map_congr {rename other : Renaming}
    (names : ∀ name ∈ metadata.tree?.toList.flatMap fun tree => tree.2.outerNames,
      rename.apply metadata.outer name.1 name.2 = other.apply metadata.outer name.1 name.2)
    (facade : ∀ facade ∈ metadata.facade?, rename.className facade = other.className facade) :
    metadata.map rename = metadata.map other := by
  -- Renaming is what comes after renaming nothing.
  have composed : (metadata.map (.ofClassNames fun name => name)).map rename =
      metadata.map other := by
    refine map_map_of_agree ?_ facade
    rwa [map_ofClassNames_id, apply_ofClassNames_id]
  rwa [map_ofClassNames_id] at composed

/-- Only relevant renames matter: renamings of classes that agree on the names that are looked up
give the same metadata, and new names for classes that are not looked up change nothing. -/
theorem map_eq_of_agree (metadata : Metadata) :
    (∀ first second : String → String, (∀ name ∈ metadata.lookups, first name = second name) →
      metadata.map (.ofClassNames first) = metadata.map (.ofClassNames second)) ∧
    ∀ known added : List (String × String), (∀ pair ∈ added, pair.1 ∉ metadata.lookups) →
      metadata.map (ClassMap.ofList (known ++ added)).toRenaming =
        metadata.map (ClassMap.ofList known).toRenaming := by
  have agreeing : ∀ first second : String → String,
      (∀ name ∈ metadata.lookups, first name = second name) →
        metadata.map (.ofClassNames first) = metadata.map (.ofClassNames second) := by
    intro first second agree
    refine map_congr (apply_congr_of_lookups agree) fun facade mem => agree facade ?_
    simp [lookups, Option.mem_def.mp mem]
  refine ⟨agreeing, fun known added unasked => agreeing _ _ fun name mem => ?_⟩
  apply ClassMap.apply_ofList_append
  rintro pair pairMem rfl
  exact unasked pair pairMem mem

/-- A use of an annotation with a class as its argument. -/
def markSample (mark shown : String) : Message .annotationUse :=
  .message (.cons (.exactly (.leaf _ mark)) <|
    .cons (.more (.message (.cons (.exactly (.leaf _ "value")) <|
      .cons (.exactly (.message (.cons .absent <| .cons .absent <| .cons .absent <|
        .cons .absent <| .cons .absent <| .cons (.present (.leaf _ shown)) <| .cons .absent <|
        .cons .absent <| .cons .empty <| .cons .absent <| .cons .absent .nil) [])) .nil) [])
      .empty) .nil) []

/-- A class with a nested one and a method whose descriptor ends inside a reference. -/
def markedSample (name nested supertype mark shown descriptor : String) : Metadata :=
  .classBody <| Declaration.classBody name []
    [Declaration.type (.className supertype) [] [markSample mark shown]] none [nested] []
    { functions := [Declaration.function "f" [] [] none
        (some (Declaration.methodSignature "a/F" descriptor))] }

/-- A class moved with the classes around it. -/
def moveAroundSample (name : String) : String :=
  if name = "a/C" then "b/M"
  else if name = "a/C$In" then "b/M$On"
  else if name = "a/Mark" then "b/Mark"
  else if name = "a/L" then "b/N"
  else name

/-- What an annotation shows, what names a member and what stands in a reference that does not end
may be called anything. -/
theorem map_eq_of_agree_sample :
    let sample := markedSample ".a/C" "In" "a/B.D" "a/Mark" "a/Shown" "(La/L;La/Open"
    let renamed := markedSample ".b/M" "On" "a/B.D" "b/Mark" "a/Shown" "(Lb/N;La/Open"
    let known := [("a/C", "b/M"), ("a/C$In", "b/M$On"), ("a/Mark", "b/Mark"), ("a/L", "b/N")]
    let added := [("a/Shown", "b/Shown"), ("a/F", "b/F"), ("a/Open", "b/Open")]
    sample.map (.ofClassNames fun name =>
        if name ∈ sample.lookups then moveAroundSample name else "b/Other") = renamed ∧
      sample.map (ClassMap.ofList (known ++ added)).toRenaming =
        sample.map (ClassMap.ofList known).toRenaming := by
  intro sample renamed known added
  have lookups : sample.lookups = ["a/C", "a/B$D", "a/Mark", "a/L", "a/C$In"] := by decide
  have moved : sample.map (.ofClassNames moveAroundSample) = renamed :=
    congrArg classBody (by decide +kernel)
  refine ⟨?_, (map_eq_of_agree sample).2 known added (by rw [lookups]; decide)⟩
  rw [← moved]
  exact (map_eq_of_agree sample).1 _ _ fun name mem => if_pos mem

end Metadata

end KotlinMetadata
