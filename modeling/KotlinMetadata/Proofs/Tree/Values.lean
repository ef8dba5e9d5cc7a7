import KotlinMetadata.Tree.Decode
import KotlinMetadata.Tree.Encode

/-!
# Fields by their values

Nothing but its arity tells how a field holds its values, so a field is known
by the list of them.  Every traversal of a tree goes through these lists, and
a property of trees holds if it passes from the values of the fields of a
message to the message.
-/

namespace KotlinMetadata.Tree

/-- The values that a field holds, in order. -/
def held {arity : Arity} {type : ValueType} (slot : Tree (.slot arity type)) :
    List (Tree (.value type)) :=
  slot.values

section

variable {label : String} {packed : Bool} {type : ValueType}

@[simp]
theorem held_exactly (value : Tree (.value type)) :
    (exactly value : Tree (.slot (.required label) type)).held = [value] :=
  rfl

@[simp]
theorem held_absent : (absent : Tree (.slot .optional type)).held = [] :=
  rfl

@[simp]
theorem held_present (value : Tree (.value type)) : (present value).held = [value] :=
  rfl

@[simp]
theorem held_empty : (empty : Tree (.slot (.repeated packed) type)).held = [] :=
  rfl

@[simp]
theorem held_more (value : Tree (.value type)) (rest : Tree (.slot (.repeated packed) type)) :
    (more value rest).held = value :: rest.held :=
  rfl

@[simp]
theorem held_ofList (values : List (Tree (.value type))) :
    (ofList values : Tree (.slot (.repeated packed) type)).held = values :=
  values_ofList values

@[simp]
theorem held_ofOption (value : Option (Tree (.value type))) :
    (ofOption value).held = value.toList := by
  cases value <;> rfl

end

theorem write_slot (index : TableName → Int32) :
    ∀ {arity : Arity} {type : ValueType} (slot : Tree (.slot arity type)),
      slot.write index = slot.held.map fun value => (value.write index : List UInt8)
  | _, _, exactly _ => rfl
  | _, _, absent => rfl
  | _, _, present _ => rfl
  | _, _, empty => rfl
  | _, _, more _ rest => congrArg _ (write_slot index rest)

theorem names_slot : ∀ {arity : Arity} {type : ValueType} (slot : Tree (.slot arity type)),
    slot.names = slot.held.flatMap names
  | _, _, exactly _ => by simp [names]
  | _, _, absent => rfl
  | _, _, present _ => by simp [names]
  | _, _, empty => rfl
  | _, _, more _ rest => by simp [names, names_slot rest]

/-- A field is as high as the highest of its values. -/
theorem height_slot_le_iff {bound : Nat} :
    ∀ {arity : Arity} {type : ValueType} {slot : Tree (.slot arity type)},
      slot.height ≤ bound ↔ ∀ value ∈ slot.held, value.height ≤ bound
  | _, _, exactly _ => by simp [height]
  | _, _, absent => by simp [height]
  | _, _, present _ => by simp [height]
  | _, _, empty => by simp [height]
  | _, _, more _ rest => by
      rw [height, Nat.max_le, height_slot_le_iff, held_more, List.forall_mem_cons]

section

variable {arity : Arity} {scalar : Leaf} (slot : Tree (.slot arity (.leaf scalar)))

theorem height_of_leaf_le (bound : Nat) : slot.height ≤ bound :=
  height_slot_le_iff.mpr fun value _ => match value with
    | leaf _ _ => Nat.zero_le bound

theorem names_of_leaf (anonymous : ∀ value, leafName scalar value = none) : slot.names = [] := by
  rw [names_slot, List.flatMap_eq_nil_iff]
  intro value _
  match value with
  | leaf _ value => rw [names, anonymous]; rfl

end

section

variable {field : Field} {fields : List Field} {slot : Tree (.slot field.arity field.type)}
  {rest : Tree (.fields fields)}

theorem names_cons_eq_nil (first : slot.names = []) (others : rest.names = []) :
    (cons slot rest).names = [] := by
  rw [names, first, others, List.nil_append]

theorem height_cons_le {bound : Nat} (first : slot.height ≤ bound) (others : rest.height ≤ bound) :
    (cons slot rest).height ≤ bound :=
  Nat.max_le.mpr ⟨first, others⟩

end

/-- A field takes back the values that it holds. -/
theorem fill_held : ∀ {arity : Arity} {type : ValueType} (slot : Tree (.slot arity type)),
    fill arity slot.held = .ok slot
  | _, _, exactly _ => rfl
  | _, _, absent => rfl
  | _, _, present _ => rfl
  | _, _, empty => rfl
  | _, _, more value rest => by
      have tail : ofList rest.held = rest := Except.ok.inj (fill_held rest)
      simp only [fill, held_more, ofList, tail]

/-- A field takes its values from those that it is given. -/
theorem mem_of_mem_held_of_fill {arity : Arity} {type : ValueType}
    {given : List (Tree (.value type))} {slot : Tree (.slot arity type)}
    (filled : fill arity given = .ok slot) {value : Tree (.value type)}
    (mem : value ∈ slot.held) : value ∈ given := by
  cases arity with
  | required label =>
      rw [fill] at filled
      split at filled
      · rename_i last found
        cases filled
        rw [List.mem_singleton.mp mem]
        exact List.mem_of_getLast? found
      · cases filled
  | optional =>
      cases filled
      rw [held_ofOption, Option.mem_toList] at mem
      exact List.mem_of_getLast? mem
  | repeated packed =>
      cases filled
      rwa [held_ofList] at mem

/-- What a property of values and one of sequences of fields come to for a piece of a tree: a field
has it if its values do. -/
def OnPart (onValue : {type : ValueType} → Tree (.value type) → Prop)
    (onFields : {fields : List Field} → Tree (.fields fields) → Prop) :
    {part : Part} → Tree part → Prop
  | .value _, value => onValue value
  | .slot _ _, slot => ∀ value ∈ slot.held, onValue value
  | .fields _, tree => onFields tree

/-- What holds of a message as soon as it holds of the values of its fields holds of every value
and of all fields. -/
theorem value_and_fields_induction (valueMotive : {type : ValueType} → Tree (.value type) → Prop)
    (fieldsMotive : {fields : List Field} → Tree (.fields fields) → Prop)
    (onLeaf : ∀ scalar value, valueMotive (leaf scalar value))
    (onMessage : ∀ {kind : Kind} (fields : Tree (.fields kind.fields)) unknown,
      fieldsMotive fields → valueMotive (message fields unknown))
    (onNil : fieldsMotive nil)
    (onCons : ∀ {field : Field} {fields : List Field} (slot : Tree (.slot field.arity field.type))
      (rest : Tree (.fields fields)), (∀ value ∈ slot.held, valueMotive value) →
        fieldsMotive rest → fieldsMotive (cons slot rest)) :
    (∀ {type : ValueType} (value : Tree (.value type)), valueMotive value) ∧
      ∀ {fields : List Field} (tree : Tree (.fields fields)), fieldsMotive tree := by
  have every : ∀ {part : Part} (tree : Tree part), OnPart valueMotive fieldsMotive tree := by
    intro part tree
    induction tree with
    | leaf scalar value => exact onLeaf scalar value
    | message fields unknown ih => exact onMessage fields unknown ih
    | exactly value ih => exact List.forall_mem_singleton.mpr ih
    | absent => exact fun value mem => (List.not_mem_nil mem).elim
    | present value ih => exact List.forall_mem_singleton.mpr ih
    | empty => exact fun value mem => (List.not_mem_nil mem).elim
    | more value rest ihValue ihRest => exact List.forall_mem_cons.mpr ⟨ihValue, ihRest⟩
    | nil => exact onNil
    | cons slot rest ihSlot ihRest => exact onCons slot rest ihSlot ihRest
  exact ⟨fun value => every value, fun tree => every tree⟩

/-! ## Equality -/

/-- Trees that compare equal are equal. -/
theorem beq_iff_eq {part : Part} {tree other : Tree part} :
    tree.beq other = true ↔ tree = other := by
  induction tree with
  | leaf scalar value => cases other; simp [beq]
  | message fields unknown ih => cases other; simp [beq, ih]
  | exactly value ih => cases other; simp [beq, ih]
  | absent => cases other <;> simp [beq]
  | present value ih => cases other <;> simp [beq, ih]
  | empty => cases other <;> simp [beq]
  | more value rest ihValue ihRest => cases other <;> simp [beq, ihValue, ihRest]
  | nil => cases other; simp [beq]
  | cons slot rest ihSlot ihRest => cases other; simp [beq, ihSlot, ihRest]

instance {part : Part} : DecidableEq (Tree part) :=
  fun _ _ => decidable_of_iff _ beq_iff_eq

end KotlinMetadata.Tree
