import KotlinMetadata.Proofs.Tree.Values
import KotlinMetadata.Proofs.Wire.Reading
import KotlinMetadata.Proofs.Wire.Sorting

/-!
# Fields that a message does not know

A message may keep any fields that can stand in a buffer, as long as its kind
does not know them.  Writing puts them in order by number, so this order is
all that a tree can lose: sorting them changes neither the names of a tree,
nor how deep it is, nor what is written for it.
-/

namespace KotlinMetadata.Tree

open Wire

/-- No message of a tree keeps a field that it knows or that cannot stand in a buffer. -/
def WellFormed : {part : Part} → Tree part → Prop
  | _, leaf _ _ => True
  | _, @message kind fields unknown =>
      fields.WellFormed ∧ ∀ raw ∈ unknown, raw.Valid ∧ kind.field? raw.number raw.wire = none
  | _, exactly value => value.WellFormed
  | _, absent => True
  | _, present value => value.WellFormed
  | _, empty => True
  | _, more value rest => value.WellFormed ∧ rest.WellFormed
  | _, nil => True
  | _, cons slot rest => slot.WellFormed ∧ rest.WellFormed

instance decidableWellFormed : {part : Part} → (tree : Tree part) → Decidable tree.WellFormed
  | _, leaf _ _ => isTrue trivial
  | _, @message kind fields unknown =>
      have := decidableWellFormed fields
      inferInstanceAs (Decidable (fields.WellFormed ∧
        ∀ raw ∈ unknown, raw.Valid ∧ kind.field? raw.number raw.wire = none))
  | _, exactly value => decidableWellFormed value
  | _, absent => isTrue trivial
  | _, present value => decidableWellFormed value
  | _, empty => isTrue trivial
  | _, more value rest =>
      have := decidableWellFormed value
      have := decidableWellFormed rest
      inferInstanceAs (Decidable (value.WellFormed ∧ rest.WellFormed))
  | _, nil => isTrue trivial
  | _, cons slot rest =>
      have := decidableWellFormed slot
      have := decidableWellFormed rest
      inferInstanceAs (Decidable (slot.WellFormed ∧ rest.WellFormed))

/-- A tree with the fields that its messages do not know sorted by number. -/
def sortUnknown : {part : Part} → Tree part → Tree part
  | _, leaf scalar value => leaf scalar value
  | _, message fields unknown => message fields.sortUnknown (sortFields unknown)
  | _, exactly value => exactly value.sortUnknown
  | _, absent => absent
  | _, present value => present value.sortUnknown
  | _, empty => empty
  | _, more value rest => more value.sortUnknown rest.sortUnknown
  | _, nil => nil
  | _, cons slot rest => cons slot.sortUnknown rest.sortUnknown

theorem wellFormed_slot_iff : ∀ {arity : Arity} {type : ValueType}
    {slot : Tree (.slot arity type)}, slot.WellFormed ↔ ∀ value ∈ slot.held, value.WellFormed
  | _, _, exactly _ => by simp [WellFormed]
  | _, _, absent => by simp [WellFormed]
  | _, _, present _ => by simp [WellFormed]
  | _, _, empty => by simp [WellFormed]
  | _, _, more _ rest => by simp [WellFormed, @wellFormed_slot_iff _ _ rest]

theorem held_sortUnknown : ∀ {arity : Arity} {type : ValueType} (slot : Tree (.slot arity type)),
    slot.sortUnknown.held = slot.held.map sortUnknown
  | _, _, exactly _ => rfl
  | _, _, absent => rfl
  | _, _, present _ => rfl
  | _, _, empty => rfl
  | _, _, more value rest => congrArg (value.sortUnknown :: ·) (held_sortUnknown rest)

@[simp]
theorem sortUnknown_sortUnknown {part : Part} (tree : Tree part) :
    tree.sortUnknown.sortUnknown = tree.sortUnknown := by
  induction tree with
  | _ => simp_all [sortUnknown]

@[simp]
theorem names_sortUnknown {part : Part} (tree : Tree part) :
    tree.sortUnknown.names = tree.names := by
  induction tree with
  | _ => simp_all [sortUnknown, names]

@[simp]
theorem height_sortUnknown {part : Part} (tree : Tree part) :
    tree.sortUnknown.height = tree.height := by
  induction tree with
  | _ => simp_all [sortUnknown, height]

/-- The fields that a message does not know are written by number in any case. -/
@[simp]
theorem write_sortUnknown (index : TableName → Int32) {part : Part} (tree : Tree part) :
    tree.sortUnknown.write index = tree.write index := by
  induction tree with
  | message fields unknown ih =>
      simp only [sortUnknown, write, ih, encodeFields, sortFields_append_sortFields]
  | _ => simp_all [sortUnknown, write]

/-! ## Trees without such fields -/

/-- No message of a tree keeps a field that it does not know. -/
def Known : {part : Part} → Tree part → Prop
  | _, leaf _ _ => True
  | _, message fields unknown => fields.Known ∧ unknown = []
  | _, exactly value => value.Known
  | _, absent => True
  | _, present value => value.Known
  | _, empty => True
  | _, more value rest => value.Known ∧ rest.Known
  | _, nil => True
  | _, cons slot rest => slot.Known ∧ rest.Known

theorem Known.wellFormed {part : Part} {tree : Tree part} (known : tree.Known) :
    tree.WellFormed := by
  induction tree with
  | message fields unknown ih =>
      rcases known with ⟨fieldsKnown, rfl⟩
      exact ⟨ih fieldsKnown, fun raw mem => nomatch mem⟩
  | more _ _ ihValue ihRest => exact ⟨ihValue known.1, ihRest known.2⟩
  | cons _ _ ihSlot ihRest => exact ⟨ihSlot known.1, ihRest known.2⟩
  | exactly _ ih => exact ih known
  | present _ ih => exact ih known
  | _ => trivial

theorem Known.sortUnknown {part : Part} {tree : Tree part} (known : tree.Known) :
    tree.sortUnknown = tree := by
  induction tree with
  | message fields unknown ih =>
      rcases known with ⟨fieldsKnown, rfl⟩
      rw [Tree.sortUnknown, ih fieldsKnown, sortFields_nil]
  | more _ _ ihValue ihRest => rw [Tree.sortUnknown, ihValue known.1, ihRest known.2]
  | cons _ _ ihSlot ihRest => rw [Tree.sortUnknown, ihSlot known.1, ihRest known.2]
  | exactly _ ih => rw [Tree.sortUnknown, ih known]
  | present _ ih => rw [Tree.sortUnknown, ih known]
  | _ => rfl

theorem known_slot_iff : ∀ {arity : Arity} {type : ValueType} {slot : Tree (.slot arity type)},
    slot.Known ↔ ∀ value ∈ slot.held, value.Known
  | _, _, exactly _ => by simp [Known]
  | _, _, absent => by simp [Known]
  | _, _, present _ => by simp [Known]
  | _, _, empty => by simp [Known]
  | _, _, more _ rest => by simp [Known, @known_slot_iff _ _ rest]

theorem known_of_leaf {arity : Arity} {scalar : Leaf} (slot : Tree (.slot arity (.leaf scalar))) :
    slot.Known :=
  known_slot_iff.mpr fun value _ => match value with
    | leaf _ _ => trivial

/-! ## Renaming -/

/-- Renaming leaves the fields that a message does not know alone. -/
@[simp]
theorem wellFormed_mapNames (rename : Role → String → String) {part : Part} (tree : Tree part) :
    (tree.mapNames rename).WellFormed ↔ tree.WellFormed := by
  induction tree with
  | cons slot rest ihSlot ihRest =>
      simp only [mapNames, WellFormed, ihRest]
      split
      · rfl
      · rw [ihSlot]
  | _ => simp_all [mapNames, WellFormed]

@[simp]
theorem height_mapNames (rename : Role → String → String) {part : Part} (tree : Tree part) :
    (tree.mapNames rename).height = tree.height := by
  induction tree with
  | cons slot rest ihSlot ihRest =>
      simp only [mapNames, height, ihRest]
      split
      · rfl
      · rw [ihSlot]
  | _ => simp_all [mapNames, height]

end KotlinMetadata.Tree
