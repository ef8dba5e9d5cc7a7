import KotlinMetadata.Proofs.Renaming.ClassName
import KotlinMetadata.Proofs.Renaming.References
import KotlinMetadata.Tree.Declarations

/-!
# Renaming twice

Two renamings one after the other come to a third one as soon as they do so for
every name that is reached.  For renamings given by class names this is a
matter of class names in trees and of nested classes; all other names compose by
themselves.
-/

namespace KotlinMetadata

namespace Tree

/-- What a renaming makes of a tree depends on the names that it reaches alone. -/
theorem mapNames_congr {rename other : Role → String → String} {part : Part} {tree : Tree part}
    (agree : ∀ name ∈ tree.openNames, rename name.1 name.2 = other name.1 name.2) :
    tree.mapNames rename = tree.mapNames other := by
  induction tree with
  | leaf kind value =>
      cases kind with
      | name role => exact congrArg (leaf _) (agree (role, value) List.mem_cons_self)
      | _ => rfl
  | message fields unknown ih => rw [mapNames, mapNames, ih agree]
  | exactly value ih => rw [mapNames, mapNames, ih agree]
  | present value ih => rw [mapNames, mapNames, ih agree]
  | more value rest ihValue ihRest =>
      rcases List.forall_mem_append.mp agree with ⟨valueAgree, restAgree⟩
      rw [mapNames, mapNames, ihValue valueAgree, ihRest restAgree]
  | cons slot rest ihSlot ihRest =>
      rcases List.forall_mem_append.mp agree with ⟨slotAgree, restAgree⟩
      rw [mapNames, mapNames, ihRest restAgree]
      split
      · rfl
      · rename_i open_
        rw [if_neg open_] at slotAgree
        rw [ihSlot slotAgree]
  | _ => rfl

/-- Two renamings of a message come to a third one if they do so for its names outside the
arguments of annotations. -/
theorem mapNames_mapNames_eq {first second both : Role → String → String} {kind : Kind}
    {body : Message kind} (outside : kind ≠ .annotationArgument)
    (agree : ∀ name ∈ body.outerNames, second name.1 (first name.1 name.2) = both name.1 name.2) :
    (body.mapNames first).mapNames second = body.mapNames both := by
  rw [mapNames_mapNames]
  apply mapNames_congr
  rwa [openNames_eq_outerNames _ fun type_eq => outside (ValueType.message.inj type_eq)]

end Tree

/-- Only a class body names nested classes. -/
theorem Kind.not_nestedName_of_mem_fields (kind : Kind) (other : kind ≠ .classBody) :
    ∀ field ∈ kind.fields,
      field.type ≠ .leaf (.name .nestedName) ∧ field.type ≠ .message .classBody := by
  cases kind with
  | classBody => exact absurd rfl other
  | _ => decide

namespace Metadata

variable {metadata : Metadata} {rename first second both : Renaming}

theorem mem_classReferences {name : String}
    (mem : (.className, name) ∈ metadata.tree?.toList.flatMap fun tree => tree.2.outerNames) :
    name ∈ metadata.classReferences :=
  List.mem_filterMap.mpr ⟨_, mem, rfl⟩

theorem mem_namesOf {role : Role} (outside : role.inArguments = false) {name : String}
    (mem : (role, name) ∈ metadata.tree?.toList.flatMap fun tree => tree.2.outerNames) :
    name ∈ metadata.namesOf role := by
  rw [namesOf_eq metadata outside]
  exact List.mem_map.mpr ⟨_, List.mem_filter.mpr ⟨mem, decide_eq_true rfl⟩, rfl⟩

/-- Metadata that names nested classes describes a class. -/
theorem exists_classBody_of_mem_namesOf {name : String}
    (mem : name ∈ metadata.namesOf .nestedName) : ∃ body, metadata = classBody body := by
  have none : ∀ {kind : Kind} (body : Message kind), kind ≠ .classBody →
      body.names.filter (fun name => name.1 = .nestedName) = [] := by
    intro kind body other
    rw [List.filter_eq_nil_iff]
    intro name mem isNested
    have allowed := Tree.forall_mem_names (fun type =>
        type ≠ .leaf (.name .nestedName) ∧ type ≠ .message .classBody)
      (fun kind given => kind.not_nestedName_of_mem_fields fun same => given.2 (congrArg _ same))
      ⟨ValueType.noConfusion, fun same => other (ValueType.message.inj same)⟩ body name mem
    exact allowed.1 (congrArg _ (congrArg _ (of_decide_eq_true isNested)))
  cases metadata with
  | classBody body => exact ⟨body, rfl⟩
  | syntheticClass lambda => cases lambda <;> simp [namesOf, tree?, none] at mem
  | _ => simp [namesOf, tree?, none] at mem

theorem className_renameClass : ∀ body : Message .classBody,
    className (renameClass rename body) = rename.treeName (className body)
  | .message (.cons _ (.cons _ (.cons (.exactly (.leaf _ _)) _))) _ => rfl

/-- The class that nested classes are understood in is renamed like any other. -/
theorem internalName_outer_map (tidy : Tidy rename.className) {simple : String}
    (mem : simple ∈ metadata.namesOf .nestedName) :
    internalName (metadata.map rename).outer = rename.className (internalName metadata.outer) := by
  rcases exists_classBody_of_mem_namesOf mem with ⟨body, rfl⟩
  change internalName (className (renameClass rename body)) = _
  rw [className_renameClass, Renaming.internalName_treeName (Renaming.spellable_of_tidy tidy _)]
  rfl

/-- Two renamings of metadata come to a third one if they do so for every reference. -/
theorem map_map_of_agree
    (names : ∀ name ∈ metadata.tree?.toList.flatMap fun tree => tree.2.outerNames,
      second.apply (metadata.map first).outer name.1 (first.apply metadata.outer name.1 name.2) =
        both.apply metadata.outer name.1 name.2)
    (facade : ∀ facade ∈ metadata.facade?,
      second.className (first.className facade) = both.className facade) :
    (metadata.map first).map second = metadata.map both := by
  have trees : ∀ tree ∈ metadata.tree?,
      (tree.2.mapNames (first.apply metadata.outer)).mapNames
          (second.apply (metadata.map first).outer) =
        tree.2.mapNames (both.apply metadata.outer) := by
    intro tree mem
    have mem := Option.mem_toList.mpr mem
    apply Tree.mapNames_mapNames_eq (not_argument_of_mem_tree? metadata tree mem)
    exact fun name nameMem => names name (List.mem_flatMap.mpr ⟨tree, mem, nameMem⟩)
  cases metadata with
  | classBody body => exact congrArg classBody (trees ⟨_, body⟩ rfl)
  | fileFacade package => exact congrArg fileFacade (trees ⟨_, package⟩ rfl)
  | syntheticClass lambda =>
      cases lambda with
      | none => rfl
      | some lambda =>
          exact congrArg (syntheticClass ∘ some) (trees ⟨_, lambda⟩ rfl)
  | multiFilePart package name =>
      exact congrArg₂ multiFilePart (trees ⟨_, package⟩ rfl) (facade name rfl)
  | multiFileFacade _ => rfl
  | unknown _ => rfl

end Metadata

/-! ## Renamings given by class names -/

namespace Metadata

open Renaming

variable {metadata : Metadata} {first second : String → String}

/-- Two renamings of classes come to their composition if they do so for the class names in a tree,
and if nested classes stay nested. -/
theorem map_map_ofClassNames (tidy : Tidy first)
    (classNames : ∀ name ∈ metadata.classReferences,
      (ofClassNames second).treeName ((ofClassNames first).treeName name) =
        (ofClassNames (second ∘ first)).treeName name)
    (nested : ∀ simple ∈ metadata.namesOf .nestedName, ∃ middle new,
      StaysNested first (internalName metadata.outer) simple middle ∧
        StaysNested second (first (internalName metadata.outer)) middle new ∧
        StaysNested (second ∘ first) (internalName metadata.outer) simple new) :
    (metadata.map (.ofClassNames first)).map (.ofClassNames second) =
      metadata.map (.ofClassNames (second ∘ first)) := by
  refine map_map_of_agree ?names fun _ _ => rfl
  rintro ⟨role, text⟩ mem
  cases role with
  | plain => rfl
  | className => exact classNames text (mem_classReferences mem)
  | nestedName =>
      have mem := mem_namesOf rfl mem
      obtain ⟨middle, new, firstStays, secondStays, bothStay⟩ := nested text mem
      have outer : internalName (metadata.map (.ofClassNames first)).outer = _ :=
        internalName_outer_map tidy mem
      have firstName : (ofClassNames first).nestedName metadata.outer text = middle :=
        nestedName_of_staysNested firstStays
      have bothName : (ofClassNames (second ∘ first)).nestedName metadata.outer text = new :=
        nestedName_of_staysNested bothStay
      change (ofClassNames second).nestedName _
        ((ofClassNames first).nestedName metadata.outer text) = _
      rw [firstName]
      refine Eq.trans ?_ bothName.symm
      apply nestedName_of_staysNested
      rw [outer]
      exact secondStays
  | internalName => rfl
  | methodDescriptor => exact Descriptor.mapClassNames_mapClassNames tidy.keepsOpen second text
  | fieldDescriptor => exact Descriptor.mapClassNames_mapClassNames tidy.keepsOpen second text

/-- Where class names keep, every name keeps. -/
theorem apply_ofClassNames_id (outer : String) :
    (ofClassNames fun name => name).apply outer = fun _ text => text := by
  funext role text
  cases role with
  | plain | internalName => rfl
  | className => exact treeName_of_unchanged rfl
  | nestedName => exact if_pos rfl
  | methodDescriptor | fieldDescriptor => exact Descriptor.mapClassNames_id text

theorem map_ofClassNames_id (metadata : Metadata) :
    metadata.map (.ofClassNames fun name => name) = metadata := by
  have trees : ∀ outer {kind : Kind} (body : Message kind),
      body.mapNames ((ofClassNames fun name => name).apply outer) = body := by
    intro outer kind body
    rw [apply_ofClassNames_id, Tree.mapNames_id]
  cases metadata with
  | classBody body => exact congrArg classBody (trees _ body)
  | fileFacade package => exact congrArg fileFacade (trees _ package)
  | syntheticClass lambda =>
      cases lambda with
      | none => rfl
      | some lambda => exact congrArg (syntheticClass ∘ some) (trees _ lambda)
  | multiFilePart package facade => exact congrArg (multiFilePart · facade) (trees _ package)
  | multiFileFacade _ => rfl
  | unknown _ => rfl

/-- Renaming classes twice is renaming them by the composition, as long as no class name in the
tree has a dollar sign and nested classes stay nested.  So a renaming is undone by one that takes
every new name back. -/
theorem map_map_eq_map_comp (tidy : Tidy first)
    (dollarless : ∀ name ∈ metadata.classReferences, '$' ∉ name.toList)
    (nested : ∀ simple ∈ metadata.namesOf .nestedName, ∃ middle new,
      StaysNested first (internalName metadata.outer) simple middle ∧
        StaysNested second (first (internalName metadata.outer)) middle new ∧
        (second (first s!"{internalName metadata.outer}${simple}") =
            s!"{internalName metadata.outer}${simple}" →
          second (first (internalName metadata.outer)) = internalName metadata.outer)) :
    (metadata.map (.ofClassNames first)).map (.ofClassNames second) =
        metadata.map (.ofClassNames (second ∘ first)) ∧
      ((∀ name, second (first name) = name) →
        (metadata.map (.ofClassNames first)).map (.ofClassNames second) = metadata) := by
  have composed : (metadata.map (.ofClassNames first)).map (.ofClassNames second) =
      metadata.map (.ofClassNames (second ∘ first)) := by
    refine map_map_ofClassNames tidy ?classNames ?nested
    case classNames =>
      exact fun name mem => treeName_treeName_of_not_mem tidy (fun _ => rfl) (dollarless name mem)
    case nested =>
      intro simple mem
      obtain ⟨middle, new, firstStays, secondStays, kept⟩ := nested simple mem
      have inside := (congrArg second firstStays.inside).trans secondStays.inside
      exact ⟨middle, new, firstStays, secondStays, inside, kept⟩
  refine ⟨composed, fun inverse => ?_⟩
  have same : second ∘ first = fun name => name := funext inverse
  rw [composed, same, map_ofClassNames_id]

/-- Two classes exchanged, each with a nested class. -/
def exchangeSample (name : String) : String :=
  if name = "a/C" then "b/D"
  else if name = "a/C$In" then "b/D$On"
  else if name = "b/D" then "a/C"
  else if name = "b/D$On" then "a/C$In"
  else name

/-- A class that refers to itself and to its nested class in every way that a class can. -/
def nestingSample (name simple nested signature : String) : Metadata :=
  .classBody <| Declaration.classBody name [] [Declaration.type (.className nested) [] []]
    (some simple) [simple] [nested]
    { functions := [Declaration.function "f" [] [] none
        (some (Declaration.methodSignature "f" signature))] }

/-- Exchanging twice restores a class that exchanging once changes everywhere. -/
theorem map_map_eq_map_comp_sample :
    let sample := nestingSample ".a/C" "In" "a/C.In" "(La/C$In;La/C"
    sample.map (.ofClassNames exchangeSample) =
        nestingSample ".b/D" "On" "b/D.On" "(Lb/D$On;La/C" ∧
      (sample.map (.ofClassNames exchangeSample)).map (.ofClassNames exchangeSample) = sample := by
  intro sample
  have others : ∀ name ∉ ["a/C", "a/C$In", "b/D", "b/D$On"], exchangeSample name = name := by
    intro name new
    simp_all [exchangeSample]
  have tidy : Tidy exchangeSample := .of_listed others (by decide)
  have involutive : ∀ name, exchangeSample (exchangeSample name) = name := by
    intro name
    by_cases listed : name ∈ ["a/C", "a/C$In", "b/D", "b/D$On"]
    · revert name
      decide
    · rw [others name listed, others name listed]
  have outer : internalName sample.outer = "a/C" := by decide
  have renamed : sample.map (.ofClassNames exchangeSample) =
      nestingSample ".b/D" "On" "b/D.On" "(Lb/D$On;La/C" :=
    congrArg classBody (by decide)
  refine ⟨renamed, (map_map_eq_map_comp tidy (by decide) ?_).2 involutive⟩
  have names : sample.namesOf .nestedName = ["In", "In"] := by decide
  rw [names, outer]
  intro simple mem
  obtain rfl : simple = "In" := by simpa using mem
  exact ⟨"On", "In", ⟨by decide, by decide⟩, ⟨by decide, by decide⟩, by decide⟩

end Metadata

end KotlinMetadata
