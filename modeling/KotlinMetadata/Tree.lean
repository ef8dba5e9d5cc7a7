import KotlinMetadata.Schema

/-!
# Message trees

A tree is a message with its names spelled out.  The family is indexed by the
part of the schema that a piece of a tree belongs to, so a tree of a kind has
exactly the fields of that kind, each with values of its type and as many as
its arity allows; nothing has to be checked afterwards.  Fields that the kind
does not know are kept as they were read.

The operations are generic: the names of a tree, renaming them, and how deep
its messages are nested.
-/

namespace KotlinMetadata

open Wire

/-- The pieces that a tree is made of. -/
inductive Part where
  /-- One value. -/
  | value (type : ValueType)
  /-- All values of one field. -/
  | slot (arity : Arity) (type : ValueType)
  /-- The values of a sequence of fields. -/
  | fields (fields : List Field)

/-- A piece of a message tree. -/
inductive Tree : Part → Type where
  /-- A single value. -/
  | leaf (leaf : Leaf) (value : leaf.Value) : Tree (.value (.leaf leaf))
  /-- A message: the fields of its kind, and those it does not know in reading order. -/
  | message {kind : Kind} (fields : Tree (.fields kind.fields)) (unknown : List RawField) :
      Tree (.value (.message kind))
  /-- The value of a required field. -/
  | exactly {label : String} {type : ValueType} (value : Tree (.value type)) :
      Tree (.slot (.required label) type)
  /-- An optional field without a value. -/
  | absent {type : ValueType} : Tree (.slot .optional type)
  /-- An optional field with its value. -/
  | present {type : ValueType} (value : Tree (.value type)) : Tree (.slot .optional type)
  /-- A list field without values. -/
  | empty {packed : Bool} {type : ValueType} : Tree (.slot (.repeated packed) type)
  /-- A list field's first value and the others. -/
  | more {packed : Bool} {type : ValueType} (value : Tree (.value type))
      (rest : Tree (.slot (.repeated packed) type)) : Tree (.slot (.repeated packed) type)
  /-- No fields. -/
  | nil : Tree (.fields [])
  /-- The values of a field, followed by those of the other fields. -/
  | cons {field : Field} {fields : List Field} (slot : Tree (.slot field.arity field.type))
      (rest : Tree (.fields fields)) : Tree (.fields (field :: fields))

/-- A message of a given kind. -/
abbrev Message (kind : Kind) := Tree (.value (.message kind))

/-- A name as the string table tells them apart. -/
inductive TableName where
  /-- Text. -/
  | plain (text : String)
  /-- A class name. -/
  | className (name : String)
  deriving DecidableEq, Repr

/-- What the string table makes of a name with a given role. -/
def Role.tableName : Role → String → TableName
  | className, name => .className name
  | _, text => .plain text

namespace Tree

/-- What `values` lists: the values of a field, and nothing for other pieces. -/
def Values : Part → Type
  | .slot _ type => List (Tree (.value type))
  | _ => Unit

/-- The values of a field, in order. -/
def values : {part : Part} → Tree part → Values part
  | _, leaf _ _ => ()
  | _, message _ _ => ()
  | _, exactly value => [value]
  | _, absent => []
  | _, present value => [value]
  | _, empty => []
  | _, more value rest => value :: rest.values
  | _, nil => ()
  | _, cons _ _ => ()

/-- An optional field from its value, if any. -/
def ofOption {type : ValueType} : Option (Tree (.value type)) → Tree (.slot .optional type)
  | none => absent
  | some value => present value

/-- A list field from its values. -/
def ofList {packed : Bool} {type : ValueType} :
    List (Tree (.value type)) → Tree (.slot (.repeated packed) type)
  | [] => empty
  | value :: rest => more value (ofList rest)

@[simp]
theorem values_ofList {packed : Bool} {type : ValueType} (values : List (Tree (.value type))) :
    (ofList values : Tree (.slot (.repeated packed) type)).values = values := by
  induction values with
  | nil => rfl
  | cons value rest ih => exact congrArg (value :: ·) ih

/-- The name held by a leaf, if it holds one. -/
def leafName : (leaf : Leaf) → leaf.Value → Option (Role × String)
  | .name role, text => some (role, text)
  | _, _ => none

/-- The names of a tree with their roles, in writing order. -/
def names : {part : Part} → Tree part → List (Role × String)
  | _, leaf kind value => (leafName kind value).toList
  | _, message fields _ => fields.names
  | _, exactly value => value.names
  | _, absent => []
  | _, present value => value.names
  | _, empty => []
  | _, more value rest => value.names ++ rest.names
  | _, nil => []
  | _, cons slot rest => slot.names ++ rest.names

/-- The names of a tree that a renaming reaches: all but those inside frozen fields. -/
def openNames : {part : Part} → Tree part → List (Role × String)
  | _, leaf kind value => (leafName kind value).toList
  | _, message fields _ => fields.openNames
  | _, exactly value => value.openNames
  | _, absent => []
  | _, present value => value.openNames
  | _, empty => []
  | _, more value rest => value.openNames ++ rest.openNames
  | _, nil => []
  | _, @cons field _ slot rest =>
      (if field.frozen then [] else slot.openNames) ++ rest.openNames

/-- A leaf with its name replaced, if it holds one. -/
def renameLeaf (rename : Role → String → String) : (leaf : Leaf) → leaf.Value → leaf.Value
  | .name role, text => rename role text
  | .int32, value => value
  | .bool, value => value
  | .sint64, value => value
  | .float, value => value
  | .double, value => value
  | .text, value => value

/-- Every name of a tree replaced, except inside frozen fields. -/
def mapNames (rename : Role → String → String) : {part : Part} → Tree part → Tree part
  | _, leaf kind value => leaf kind (renameLeaf rename kind value)
  | _, message fields unknown => message (fields.mapNames rename) unknown
  | _, exactly value => exactly (value.mapNames rename)
  | _, absent => absent
  | _, present value => present (value.mapNames rename)
  | _, empty => empty
  | _, more value rest => more (value.mapNames rename) (rest.mapNames rename)
  | _, nil => nil
  | _, @cons field _ slot rest =>
      cons (if field.frozen then slot else slot.mapNames rename) (rest.mapNames rename)

/-- How many levels of messages there are in a tree; a message without messages inside counts
as one. -/
def height : {part : Part} → Tree part → Nat
  | _, leaf _ _ => 0
  | _, message fields _ => fields.height + 1
  | _, exactly value => value.height
  | _, absent => 0
  | _, present value => value.height
  | _, empty => 0
  | _, more value rest => max value.height rest.height
  | _, nil => 0
  | _, cons slot rest => max slot.height rest.height

/-- Equality of trees. -/
def beq : {part : Part} → Tree part → Tree part → Bool
  | _, leaf _ a, leaf _ b => decide (a = b)
  | _, message a u, message b v => a.beq b && decide (u = v)
  | _, exactly a, exactly b => a.beq b
  | _, absent, absent => true
  | _, present a, present b => a.beq b
  | _, empty, empty => true
  | _, more a as, more b bs => a.beq b && as.beq bs
  | _, nil, nil => true
  | _, cons a as, cons b bs => a.beq b && as.beq bs
  | _, _, _ => false

instance {part : Part} : BEq (Tree part) := ⟨beq⟩

/-- A renaming that leaves every name alone leaves the tree alone. -/
@[simp]
theorem mapNames_id {part : Part} (tree : Tree part) :
    tree.mapNames (fun _ text => text) = tree := by
  induction tree with
  | leaf kind value => cases kind <;> rfl
  | _ => simp_all [mapNames]

/-- Renaming twice is renaming by the composition. -/
theorem mapNames_mapNames (first second : Role → String → String) {part : Part}
    (tree : Tree part) :
    (tree.mapNames first).mapNames second =
      tree.mapNames fun role text => second role (first role text) := by
  induction tree with
  | leaf kind value => cases kind <;> rfl
  | cons slot rest ihSlot ihRest =>
      simp only [mapNames, ihRest]
      split <;> simp_all
  | _ => simp_all [mapNames]

end Tree

end KotlinMetadata
