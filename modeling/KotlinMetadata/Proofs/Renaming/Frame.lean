import KotlinMetadata.Proofs.Renaming.References

/-!
# What a renaming leaves alone

Blanking a tree empties every name that a renaming may change and keeps all
else: numbers, flags, member names, unknown fields, how many values a field
has, and whatever stands inside the arguments of annotations.  Renamed metadata
differs from what it was in blanked names only; and as a tree is known by its
blanked form and its list of names, blanking forgets nothing but these.
-/

namespace KotlinMetadata

namespace Tree

/-! ## Fields -/

/-- A field is known by its values. -/
theorem eq_of_held_eq {arity : Arity} {type : ValueType} {slot other : Tree (.slot arity type)}
    (same : slot.held = other.held) : slot = other := by
  have filled := fill_held slot
  rw [same, fill_held] at filled
  exact (Except.ok.inj filled).symm

theorem held_mapNames (rename : Role → String → String) :
    ∀ {arity : Arity} {type : ValueType} (slot : Tree (.slot arity type)),
      (slot.mapNames rename).held = slot.held.map (mapNames rename)
  | _, _, exactly _ => rfl
  | _, _, absent => rfl
  | _, _, present _ => rfl
  | _, _, empty => rfl
  | _, _, more value rest => congrArg (value.mapNames rename :: ·) (held_mapNames rename rest)

/-! ## Blanking -/

/-- A name emptied, unless it is plain text. -/
def blankName : Role → String → String
  | .plain, text => text
  | .className, _ | .nestedName, _ | .internalName, _ | .methodDescriptor, _
  | .fieldDescriptor, _ => ""

/-- A leaf with its name emptied, if it holds one that is not plain text. -/
def blankLeaf : (leaf : Leaf) → leaf.Value → leaf.Value
  | .name role, text => blankName role text
  | .int32, value => value
  | .bool, value => value
  | .sint64, value => value
  | .float, value => value
  | .double, value => value
  | .text, value => value

/-- A tree with its names emptied, apart from plain text and the arguments of annotations, which
stay as they are. -/
def blank : {part : Part} → Tree part → Tree part
  | _, leaf kind value => leaf kind (blankLeaf kind value)
  | _, @message kind fields unknown =>
      if kind = .annotationArgument then message fields unknown
      else message fields.blank unknown
  | _, exactly value => exactly value.blank
  | _, absent => absent
  | _, present value => present value.blank
  | _, empty => empty
  | _, more value rest => more value.blank rest.blank
  | _, nil => nil
  | _, cons slot rest => cons slot.blank rest.blank

theorem held_blank : ∀ {arity : Arity} {type : ValueType} (slot : Tree (.slot arity type)),
    slot.blank.held = slot.held.map blank
  | _, _, exactly _ => rfl
  | _, _, absent => rfl
  | _, _, present _ => rfl
  | _, _, empty => rfl
  | _, _, more value rest => congrArg (value.blank :: ·) (held_blank rest)

theorem blank_message {kind : Kind} (outside : kind ≠ .annotationArgument)
    (fields : Tree (.fields kind.fields)) (unknown : List Wire.RawField) :
    (message fields unknown).blank = message fields.blank unknown :=
  if_neg outside

/-- Nothing inside an annotation's argument is emptied. -/
theorem blank_argument (argument : Message .annotationArgument) : argument.blank = argument := by
  cases argument with
  | message fields unknown => exact if_pos rfl

/-- A renaming that keeps plain text changes nothing that blanking keeps. -/
theorem blank_mapNames {rename : Role → String → String}
    (keeps : ∀ text, rename .plain text = text) {kind : Kind} (body : Message kind)
    (outside : kind ≠ .annotationArgument) : (body.mapNames rename).blank = body.blank := by
  have other : ValueType.message kind ≠ .message .annotationArgument :=
    fun type_eq => outside (ValueType.message.inj type_eq)
  refine (value_and_fields_induction
    (fun {type} value =>
      type ≠ .message .annotationArgument → (value.mapNames rename).blank = value.blank)
    (fun {fields} tree =>
      (∀ field ∈ fields, field.frozen = true ↔ field.type = .message .annotationArgument) →
        (tree.mapNames rename).blank = tree.blank) ?leaf ?message ?nil ?cons).1 body other
  case leaf =>
    intro scalar value _
    cases scalar with
    | name role =>
        cases role with
        | plain => exact congrArg (leaf (.name .plain)) (keeps value)
        | _ => rfl
    | _ => rfl
  case message =>
    intro kind fields unknown same outside
    have outside : kind ≠ .annotationArgument := fun kind_eq => outside (congrArg _ kind_eq)
    rw [mapNames, blank_message outside, blank_message outside, same kind.frozen_iff]
  case nil => exact fun _ => rfl
  case cons =>
    intro field fields slot rest values others frozen_iff
    rcases List.forall_mem_cons.mp frozen_iff with ⟨first_iff, others_iff⟩
    rw [mapNames, blank, blank, others others_iff]
    congr 1
    -- A frozen field holds arguments of annotations, which neither side changes.
    split
    · rfl
    · rename_i open_
      apply eq_of_held_eq
      rw [held_blank, held_blank, held_mapNames, List.map_map]
      exact List.map_congr_left fun value mem =>
        values value mem (mt first_iff.mpr open_)

/-- The names of a blanked tree are those of the tree, emptied. -/
theorem outerNames_blank {part : Part} (tree : Tree part) :
    tree.blank.outerNames = tree.outerNames.map fun name => (name.1, blankName name.1 name.2) := by
  induction tree with
  | leaf kind value => cases kind <;> rfl
  | @message kind fields unknown ih =>
      by_cases isArgument : kind = .annotationArgument
      · simp [blank, outerNames, isArgument]
      · rw [blank_message isArgument, outerNames, outerNames, if_neg isArgument,
          if_neg isArgument, ih]
  | _ => simp_all [blank, outerNames]

theorem length_outerNames_eq_of_blank_eq {part : Part} {tree other : Tree part}
    (blanks : tree.blank = other.blank) :
    tree.outerNames.length = other.outerNames.length := by
  have lengths := congrArg (fun blanked => blanked.outerNames.length) blanks
  simpa only [outerNames_blank, List.length_map] using lengths

/-- Two pieces side by side have the same names only if each has. -/
theorem outerNames_append_inj {part part' : Part} {first other : Tree part}
    {second other' : Tree part'} (blanks : first.blank = other.blank)
    (names : first.outerNames ++ second.outerNames = other.outerNames ++ other'.outerNames) :
    first.outerNames = other.outerNames ∧ second.outerNames = other'.outerNames :=
  List.append_inj names (length_outerNames_eq_of_blank_eq blanks)

/-- A tree is known by its blanked form and its names. -/
theorem eq_of_blank_eq {part : Part} {tree other : Tree part} (blanks : tree.blank = other.blank)
    (names : tree.outerNames = other.outerNames) : tree = other := by
  induction tree with
  | leaf kind value =>
      cases other with
      | leaf _ value' =>
          cases kind with
          | name role =>
              exact congrArg (leaf _) (Prod.mk.inj (List.cons.inj names).1).2
          | _ => exact blanks
  | @message kind fields unknown ih =>
      cases other with
      | message fields' unknown' =>
          by_cases isArgument : kind = .annotationArgument
          · rwa [blank, blank, if_pos isArgument, if_pos isArgument] at blanks
          · rw [blank_message isArgument, blank_message isArgument] at blanks
            rw [outerNames, outerNames, if_neg isArgument, if_neg isArgument] at names
            injection blanks with _ fields_eq unknown_eq
            rw [ih fields_eq names, unknown_eq]
  | exactly value ih =>
      cases other with
      | exactly value' => rw [ih (by injection blanks) names]
  | absent =>
      cases other with
      | absent => rfl
      | present _ => cases blanks
  | present value ih =>
      cases other with
      | absent => cases blanks
      | present value' => rw [ih (by injection blanks) names]
  | empty =>
      cases other with
      | empty => rfl
      | more _ _ => cases blanks
  | more value rest ihValue ihRest =>
      cases other with
      | empty => cases blanks
      | more value' rest' =>
          injection blanks with _ _ value_eq rest_eq
          obtain ⟨valueNames, restNames⟩ := outerNames_append_inj value_eq names
          rw [ihValue value_eq valueNames, ihRest rest_eq restNames]
  | nil =>
      cases other with
      | nil => rfl
  | cons slot rest ihSlot ihRest =>
      cases other with
      | cons slot' rest' =>
          injection blanks with _ _ slot_eq rest_eq
          obtain ⟨slotNames, restNames⟩ := outerNames_append_inj slot_eq names
          rw [ihSlot slot_eq slotNames, ihRest rest_eq restNames]

end Tree

namespace Metadata

/-- Metadata with the names in its tree and the name of its facade emptied. -/
def blank : Metadata → Metadata
  | classBody body => classBody body.blank
  | fileFacade package => fileFacade package.blank
  | syntheticClass lambda => syntheticClass (lambda.map Tree.blank)
  | multiFileFacade parts => multiFileFacade parts
  | multiFilePart package _ => multiFilePart package.blank ""
  | unknown code => unknown code

variable (rename : Renaming) (metadata : Metadata)

/-- A renaming changes nothing but names: it leaves blanked metadata as it is, and metadata
without a tree altogether. -/
theorem blank_map : (metadata.map rename).blank = metadata.blank ∧
    (metadata.hasTree = true ∨ metadata.map rename = metadata) := by
  have keeps : ∀ outer text, rename.apply outer .plain text = text := fun _ _ => rfl
  cases metadata with
  | classBody body =>
      exact ⟨congrArg classBody (Tree.blank_mapNames (keeps _) body (by decide)), .inl rfl⟩
  | fileFacade package =>
      exact ⟨congrArg fileFacade (Tree.blank_mapNames (keeps _) package (by decide)), .inl rfl⟩
  | syntheticClass lambda =>
      cases lambda with
      | none => exact ⟨rfl, .inr rfl⟩
      | some lambda =>
          exact ⟨congrArg (syntheticClass ∘ some)
            (Tree.blank_mapNames (keeps _) lambda (by decide)), .inl rfl⟩
  | multiFileFacade parts => exact ⟨rfl, .inr rfl⟩
  | multiFilePart package facade =>
      exact ⟨congrArg (multiFilePart · "")
        (Tree.blank_mapNames (keeps _) package (by decide)), .inl rfl⟩
  | unknown code => exact ⟨rfl, .inr rfl⟩

end Metadata

end KotlinMetadata
