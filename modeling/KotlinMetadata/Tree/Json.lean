import KotlinMetadata.Json.Basic
import KotlinMetadata.Metadata

/-!
# Trees as JSON

Every field of a message is shown under its name, whether it has values or
not: a missing one as null, a list as an array.  Fields that the message does
not know come last.  How floats are shown is left to the caller.
-/

namespace KotlinMetadata

open Wire

/-- How the bits of floats are shown. -/
structure FloatForm where
  /-- A 32-bit float. -/
  single : UInt32 → Json
  /-- A 64-bit float. -/
  double : UInt64 → Json

/-- The name of a wire type in printed trees. -/
def Wire.WireType.text : WireType → String
  | .varint => "Varint"
  | .fixed64 => "Fixed64"
  | .len => "Len"
  | .fixed32 => "Fixed32"

/-- A field without its meaning. -/
def Wire.RawField.toJson (field : RawField) : Json :=
  .object
    [ ("number", .nat field.number.toNat)
    , ("wire_type", .string field.wire.text)
    , ("data", .array (field.data.map fun byte => .nat byte.toNat)) ]

namespace Tree

/-- What showing makes of a piece of a tree: a value, the values of a field, the members of an
object. -/
abbrev Shown : Part → Type
  | .value _ => Json
  | .slot _ _ => List Json
  | .fields _ => List (String × Json)

/-- A single value. -/
def leafToJson (floats : FloatForm) : (leaf : Leaf) → leaf.Value → Json
  | .int32, value => .int (value : Int32).toInt
  | .bool, value => .bool value
  | .sint64, value => .int (value : Int64).toInt
  | .float, bits => floats.single bits
  | .double, bits => floats.double bits
  | .text, text => .string text
  | .name _, text => .string text

/-- The values of a field. -/
def slotToJson : Arity → List Json → Json
  | .repeated _, values => .array values
  | _, values => values.headD .null

/-- A tree with its parts named. -/
def toJson (floats : FloatForm) : {part : Part} → Tree part → Shown part
  | _, leaf kind value => leafToJson floats kind value
  | _, message fields unknown =>
      .object (fields.toJson floats ++ [("unknown", .array (unknown.map Wire.RawField.toJson))])
  | _, exactly value => [value.toJson floats]
  | _, absent => []
  | _, present value => [value.toJson floats]
  | _, empty => []
  | _, more value rest => value.toJson floats :: rest.toJson floats
  | _, nil => []
  | _, @cons field _ slot rest =>
      (field.name, slotToJson field.arity (slot.toJson floats)) :: rest.toJson floats

end Tree

/-- Metadata under the name of its kind. -/
def Metadata.toJson (floats : FloatForm) : Metadata → Json
  | classBody body =>
      .object [("type", .string "class"), ("class", Tree.toJson floats body)]
  | fileFacade package =>
      .object [("type", .string "file_facade"), ("package", Tree.toJson floats package)]
  | syntheticClass lambda =>
      .object
        [ ("type", .string "synthetic_class")
        , ("lambda", .ofOption (fun lambda => .object [("function", Tree.toJson floats lambda)])
            lambda) ]
  | multiFileFacade parts =>
      .object
        [ ("type", .string "multi_file_class_facade")
        , ("part_class_names", .array (parts.map .string)) ]
  | multiFilePart package facade =>
      .object
        [ ("type", .string "multi_file_class_part")
        , ("package", Tree.toJson floats package)
        , ("facade_class_name", .string facade) ]
  | unknown code =>
      .object [("type", .string "unknown"), ("kind", .int code.toInt)]

end KotlinMetadata
