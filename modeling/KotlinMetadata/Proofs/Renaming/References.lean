import Mathlib.Data.List.Forall2
import KotlinMetadata.Metadata
import KotlinMetadata.Proofs.Tree.Values

/-!
# References to classes

What refers to a class is read off the names that writing a tree puts into its
string table, apart from those inside the arguments of annotations.  A renaming
reaches each of these and nothing else: references keep their number and their
order, and each becomes what the renaming makes of it.
-/

namespace KotlinMetadata

namespace Tree

/-- The names of a tree with their roles, in writing order, apart from those inside the arguments
of annotations. -/
def outerNames : {part : Part} → Tree part → List (Role × String)
  | _, leaf kind value => (leafName kind value).toList
  | _, @message kind fields _ => if kind = .annotationArgument then [] else fields.outerNames
  | _, exactly value => value.outerNames
  | _, absent => []
  | _, present value => value.outerNames
  | _, empty => []
  | _, more value rest => value.outerNames ++ rest.outerNames
  | _, nil => []
  | _, cons slot rest => slot.outerNames ++ rest.outerNames

theorem outerNames_slot : ∀ {arity : Arity} {type : ValueType} (slot : Tree (.slot arity type)),
    slot.outerNames = slot.held.flatMap outerNames
  | _, _, exactly _ => by simp [outerNames]
  | _, _, absent => rfl
  | _, _, present _ => by simp [outerNames]
  | _, _, empty => rfl
  | _, _, more _ rest => by simp [outerNames, outerNames_slot rest]

theorem openNames_slot : ∀ {arity : Arity} {type : ValueType} (slot : Tree (.slot arity type)),
    slot.openNames = slot.held.flatMap openNames
  | _, _, exactly _ => by simp [openNames]
  | _, _, absent => rfl
  | _, _, present _ => by simp [openNames]
  | _, _, empty => rfl
  | _, _, more _ rest => by simp [openNames, openNames_slot rest]

/-- Nothing is left out that writing does not also come across, nor is the order changed. -/
theorem outerNames_sublist_names {part : Part} (tree : Tree part) :
    tree.outerNames.Sublist tree.names := by
  induction tree with
  | leaf kind value => exact List.Sublist.refl _
  | message fields unknown ih =>
      rw [outerNames]
      split
      · exact List.nil_sublist _
      · exact ih
  | exactly value ih => exact ih
  | absent => exact List.Sublist.refl _
  | present value ih => exact ih
  | empty => exact List.Sublist.refl _
  | more value rest ihValue ihRest => exact ihValue.append ihRest
  | nil => exact List.Sublist.refl _
  | cons slot rest ihSlot ihRest => exact ihSlot.append ihRest

end Tree

/-- The frozen fields of a kind are the ones that hold the arguments of annotations. -/
theorem Kind.frozen_iff (kind : Kind) :
    ∀ field ∈ kind.fields, field.frozen = true ↔ field.type = .message .annotationArgument := by
  cases kind <;> decide

namespace Tree

/-- Nothing is listed of an annotation's argument. -/
theorem outerNames_argument {type : ValueType} (type_eq : type = .message .annotationArgument)
    (argument : Tree (.value type)) : argument.outerNames = [] := by
  subst type_eq
  cases argument with
  | message fields unknown => exact if_pos rfl

/-- What a renaming leaves alone is what is inside the arguments of annotations. -/
theorem openNames_eq_outerNames {type : ValueType} (value : Tree (.value type))
    (outside : type ≠ .message .annotationArgument) : value.openNames = value.outerNames := by
  refine (value_and_fields_induction
    (fun {type} value =>
      type ≠ .message .annotationArgument → value.openNames = value.outerNames)
    (fun {fields} tree =>
      (∀ field ∈ fields, field.frozen = true ↔ field.type = .message .annotationArgument) →
        tree.openNames = tree.outerNames) ?leaf ?message ?nil ?cons).1 value outside
  case leaf => exact fun scalar value _ => rfl
  case message =>
    intro kind fields unknown same outside
    have other : kind ≠ .annotationArgument := fun kind_eq => outside (congrArg _ kind_eq)
    rw [openNames, outerNames, if_neg other, same kind.frozen_iff]
  case nil => exact fun _ => rfl
  case cons =>
    intro field fields slot rest values others frozen_iff
    rcases List.forall_mem_cons.mp frozen_iff with ⟨first_iff, others_iff⟩
    rw [openNames, outerNames, others others_iff, outerNames_slot, openNames_slot]
    congr 1
    by_cases isArgument : field.type = .message .annotationArgument
    · rw [if_pos (first_iff.mpr isArgument)]
      exact (List.flatMap_eq_nil_iff.mpr fun value _ => outerNames_argument isArgument value).symm
    · rw [if_neg (mt first_iff.mp isArgument)]
      exact List.flatMap_congr fun value mem => values value mem isArgument

/-- Renaming a tree renames the names that it reaches, one by one. -/
theorem openNames_mapNames (rename : Role → String → String) {part : Part} (tree : Tree part) :
    (tree.mapNames rename).openNames =
      tree.openNames.map fun name => (name.1, rename name.1 name.2) := by
  induction tree with
  | leaf kind value => cases kind <;> rfl
  | cons slot rest ihSlot ihRest =>
      simp only [mapNames, openNames, ihRest, List.map_append]
      split
      · rfl
      · rw [ihSlot]
  | _ => simp_all [mapNames, openNames]

/-- Renaming a tree leaves each of its names as it is or renames it. -/
theorem forall₂_names_mapNames (rename : Role → String → String) {part : Part} (tree : Tree part) :
    List.Forall₂ (fun old new => new = old ∨ new = (old.1, rename old.1 old.2))
      tree.names (tree.mapNames rename).names := by
  induction tree with
  | leaf kind value =>
      cases kind with
      | name role => exact .cons (.inr rfl) .nil
      | _ => exact .nil
  | message fields unknown ih => exact ih
  | exactly value ih => exact ih
  | present value ih => exact ih
  | more value rest ihValue ihRest => exact List.rel_append ihValue ihRest
  | cons slot rest ihSlot ihRest =>
      rw [mapNames]
      refine List.rel_append ?_ ihRest
      split
      · exact List.forall₂_same.mpr fun _ _ => .inl rfl
      · exact ihSlot
  | _ => exact .nil

/-- Renaming neither adds nor drops a name. -/
theorem length_names_mapNames (rename : Role → String → String) {part : Part} (tree : Tree part) :
    (tree.mapNames rename).names.length = tree.names.length :=
  (forall₂_names_mapNames rename tree).length_eq.symm

/-- Renaming a tree renames the names outside the arguments of annotations, one by one. -/
theorem outerNames_mapNames (rename : Role → String → String) {kind : Kind}
    (message : Message kind) (outside : kind ≠ .annotationArgument) :
    (message.mapNames rename).outerNames =
      message.outerNames.map fun name => (name.1, rename name.1 name.2) := by
  have other : ValueType.message kind ≠ .message .annotationArgument :=
    fun type_eq => outside (ValueType.message.inj type_eq)
  rw [← openNames_eq_outerNames _ other, ← openNames_eq_outerNames _ other, openNames_mapNames]

end Tree

/-! ## Inside the arguments of annotations -/

/-- Whether a role is one of those that names inside the arguments of annotations have. -/
def Role.inArguments : Role → Bool
  | plain | className => true
  | nestedName | internalName | methodDescriptor | fieldDescriptor => false

/-- Whether values of a type occur inside the arguments of annotations. -/
def ValueType.inArguments : ValueType → Bool
  | leaf (.name role) => role.inArguments
  | leaf _ => true
  | message kind => kind = .annotationArgument || kind = .annotationValue || kind = .annotationUse

/-- What is inside a message that occurs there occurs there itself. -/
theorem Kind.inArguments_of_mem_fields (kind : Kind)
    (inside : (ValueType.message kind).inArguments = true) :
    ∀ field ∈ kind.fields, field.type.inArguments = true := by
  revert inside
  cases kind <;> decide

namespace Tree

/-- What passes from the type of a message to the types of its fields holds of every name inside. -/
theorem forall_mem_names (allowed : ValueType → Prop)
    (passes : ∀ kind : Kind, allowed (.message kind) → ∀ field ∈ kind.fields, allowed field.type)
    {type : ValueType} (given : allowed type) (value : Tree (.value type)) :
    ∀ name ∈ value.names, allowed (.leaf (.name name.1)) := by
  refine (value_and_fields_induction
    (fun {type} value => allowed type → ∀ name ∈ value.names, allowed (.leaf (.name name.1)))
    (fun {fields} tree => (∀ field ∈ fields, allowed field.type) →
      ∀ name ∈ tree.names, allowed (.leaf (.name name.1))) ?leaf ?message ?nil ?cons).1 value given
  case leaf =>
    intro scalar value given name mem
    cases scalar with
    | name role =>
        rw [List.mem_singleton.mp mem]
        exact given
    | _ => cases mem
  case message => exact fun fields _ all given => all (passes _ given)
  case nil => exact fun _ name mem => nomatch mem
  case cons =>
    intro field fields slot rest values others given name mem
    rcases List.forall_mem_cons.mp given with ⟨first, behind⟩
    rcases List.mem_append.mp mem with mem | mem
    · rw [names_slot] at mem
      rcases List.mem_flatMap.mp mem with ⟨value, valueMem, mem⟩
      exact values value valueMem first name mem
    · exact others behind name mem

/-- All names inside the arguments of annotations are plain or those of classes. -/
theorem inArguments_of_mem_names {type : ValueType} (inside : type.inArguments = true)
    (value : Tree (.value type)) : ∀ name ∈ value.names, name.1.inArguments = true :=
  forall_mem_names (fun type => type.inArguments = true)
    Kind.inArguments_of_mem_fields inside value

/-- The names of any other role are all outside the arguments of annotations. -/
theorem filter_names {role : Role} (outside : role.inArguments = false) {part : Part}
    (tree : Tree part) :
    tree.names.filter (fun name => name.1 = role) =
      tree.outerNames.filter fun name => name.1 = role := by
  induction tree with
  | @message kind fields unknown ih =>
      rw [outerNames]
      by_cases isArgument : kind = .annotationArgument
      · rw [if_pos isArgument, List.filter_nil, List.filter_eq_nil_iff]
        intro name mem same
        have inside : (ValueType.message kind).inArguments = true := by rw [isArgument]; decide
        have found := inArguments_of_mem_names inside (message fields unknown) name mem
        rw [of_decide_eq_true same, outside] at found
        cases found
      · rw [if_neg isArgument]
        exact ih
  | more value rest ihValue ihRest =>
      rw [names, outerNames, List.filter_append, List.filter_append, ihValue, ihRest]
  | cons slot rest ihSlot ihRest =>
      rw [names, outerNames, List.filter_append, List.filter_append, ihSlot, ihRest]
  | exactly value ih => exact ih
  | present value ih => exact ih
  | _ => rfl

end Tree

/-! ## References in metadata -/

/-- The class name, if the string table holds one. -/
def TableName.className? : TableName → Option String
  | plain _ => none
  | className name => some name

namespace Metadata

/-- The tree of metadata, if there is one. -/
def tree? : Metadata → Option ((kind : Kind) × Message kind)
  | classBody body => some ⟨_, body⟩
  | fileFacade package => some ⟨_, package⟩
  | syntheticClass lambda => lambda.map (⟨_, ·⟩)
  | multiFilePart package _ => some ⟨_, package⟩
  | multiFileFacade _ | unknown _ => none

/-- The class in which the nested classes of a tree are understood. -/
def outer : Metadata → String
  | classBody body => className body
  | _ => ""

/-- The facade that a part of a multi-file class refers to. -/
def facade? : Metadata → Option String
  | multiFilePart _ facade => some facade
  | _ => none

/-- The class names that writing puts into the string table, in writing order, apart from those
inside the arguments of annotations. -/
def classReferences (metadata : Metadata) : List String :=
  (metadata.tree?.toList.flatMap fun tree => tree.2.outerNames).filterMap fun (role, text) =>
    (role.tableName text).className?

/-- The names with a given role, in writing order. -/
def namesOf (role : Role) (metadata : Metadata) : List String :=
  ((metadata.tree?.toList.flatMap fun tree => tree.2.names).filter fun name => name.1 = role).map
    Prod.snd

variable (rename : Renaming) (metadata : Metadata)

theorem isSome_tree? : metadata.tree?.isSome = metadata.hasTree := by
  cases metadata with
  | syntheticClass lambda => cases lambda <;> rfl
  | _ => rfl

theorem not_argument_of_mem_tree? :
    ∀ tree ∈ metadata.tree?.toList, tree.1 ≠ .annotationArgument := by
  cases metadata with
  | syntheticClass lambda => cases lambda <;> simp [tree?]
  | _ => simp [tree?]

/-- Renamed metadata has the renamed tree. -/
theorem tree?_map : (metadata.map rename).tree? =
    metadata.tree?.map fun tree => ⟨tree.1, tree.2.mapNames (rename.apply metadata.outer)⟩ := by
  cases metadata with
  | syntheticClass lambda => cases lambda <;> rfl
  | _ => rfl

/-- Renaming metadata renames the names outside the arguments of annotations, one by one. -/
theorem outerNames_map :
    ((metadata.map rename).tree?.toList.flatMap fun tree => tree.2.outerNames) =
      (metadata.tree?.toList.flatMap fun tree => tree.2.outerNames).map fun name =>
        (name.1, rename.apply metadata.outer name.1 name.2) := by
  have outside := not_argument_of_mem_tree? metadata
  rw [tree?_map]
  cases found : metadata.tree? with
  | none => rfl
  | some tree =>
      rw [found] at outside
      simp [Tree.outerNames_mapNames _ _ (outside tree List.mem_cons_self)]

theorem namesOf_eq {role : Role} (outside : role.inArguments = false) :
    metadata.namesOf role =
      ((metadata.tree?.toList.flatMap fun tree => tree.2.outerNames).filter
        fun name => name.1 = role).map Prod.snd := by
  rw [namesOf]
  cases metadata.tree? with
  | none => rfl
  | some tree => simp [Tree.filter_names outside]

/-- The names of a role that is not found inside the arguments of annotations are renamed one by
one. -/
theorem namesOf_map {role : Role} (outside : role.inArguments = false) :
    (metadata.map rename).namesOf role =
      (metadata.namesOf role).map (rename.apply metadata.outer role) := by
  rw [namesOf_eq _ outside, namesOf_eq _ outside, outerNames_map, List.filter_map, List.map_map,
    List.map_map]
  apply List.map_congr_left
  intro name mem
  have same : name.1 = role := of_decide_eq_true (List.mem_filter.mp mem).2
  simp [same]

theorem classReferences_map :
    (metadata.map rename).classReferences = metadata.classReferences.map rename.treeName := by
  rw [classReferences, classReferences, outerNames_map, List.filterMap_map, List.map_filterMap]
  apply List.filterMap_congr
  intro name _
  rcases name with ⟨role, text⟩
  cases role <;> rfl

theorem facade?_map : (metadata.map rename).facade? = metadata.facade?.map rename.className := by
  cases metadata <;> rfl

/-- No reference is missed: every reference to a class becomes what the renaming makes of it, as
does every descriptor of a method or field, and every name of an origin or a facade. -/
theorem references_map :
    (metadata.map rename).classReferences = metadata.classReferences.map rename.treeName ∧
      (metadata.map rename).namesOf .methodDescriptor =
        (metadata.namesOf .methodDescriptor).map rename.methodDescriptor ∧
      (metadata.map rename).namesOf .fieldDescriptor =
        (metadata.namesOf .fieldDescriptor).map rename.fieldDescriptor ∧
      (metadata.map rename).namesOf .internalName =
        (metadata.namesOf .internalName).map rename.className ∧
      (metadata.map rename).facade? = metadata.facade?.map rename.className :=
  ⟨classReferences_map rename metadata, namesOf_map rename metadata rfl,
    namesOf_map rename metadata rfl, namesOf_map rename metadata rfl,
    facade?_map rename metadata⟩

end Metadata

end KotlinMetadata
