import KotlinMetadata.Tree

/-!
# Writing a tree

A tree becomes the fields of its message, and a message the bytes of its
fields.  Names are written as numbers, which a caller supplies; fields that
the message did not know are put back between the others by their number.
-/

namespace KotlinMetadata

open Wire

/-- The fields that carry given payloads of a field's values. -/
def Field.rawFields (field : Field) (payloads : List (List UInt8)) : List RawField :=
  if field.arity = .repeated true then
    if payloads.isEmpty then [] else [.bytes field.number payloads.flatten]
  else payloads.map fun data => { number := field.number, wire := field.type.wire, data }

namespace Tree

/-- What writing makes of a piece of a tree: the payload of a value, the payloads of a field's
values, the fields of a message. -/
abbrev Written : Part → Type
  | .value _ => List UInt8
  | .slot _ _ => List (List UInt8)
  | .fields _ => List RawField

/-- The payload of a single value. -/
def encodeLeaf (index : TableName → Int32) : (leaf : Leaf) → leaf.Value → List UInt8
  | .int32, value => encodeVarint (wordOfInt32 value)
  | .bool, value => encodeVarint (wordOfBool value)
  | .sint64, value => encodeVarint (zigzag value)
  | .float, bits => littleEndian 4 (bits : UInt32).toNat
  | .double, bits => littleEndian 8 (bits : UInt64).toNat
  | .text, text => (text : String).toUTF8.toList
  | .name role, text => encodeVarint (wordOfInt32 (index (role.tableName text)))

/-- A tree written with the numbers that `index` gives to its names. -/
def write (index : TableName → Int32) : {part : Part} → Tree part → Written part
  | _, leaf kind value => encodeLeaf index kind value
  | _, message fields unknown => encodeFields (fields.write index ++ unknown)
  | _, exactly value => [value.write index]
  | _, absent => []
  | _, present value => [value.write index]
  | _, empty => []
  | _, more value rest => value.write index :: rest.write index
  | _, nil => []
  | _, @cons field _ slot rest =>
      field.rawFields (slot.write index) ++ rest.write index

/-- The bytes of a message. -/
def encode {kind : Kind} (index : TableName → Int32) (message : Message kind) : List UInt8 :=
  message.write index

end Tree

end KotlinMetadata
