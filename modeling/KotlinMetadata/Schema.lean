import KotlinMetadata.Wire.Field

/-!
# The messages of a metadata payload

The whole format is one table: for every kind of message the fields it knows,
each with its number, its name, the type of its values, how often it may occur
and what its names stand for.  Reading, writing, renaming and printing are
generic over this table, so a field is described here once and nowhere else.

Within a message the fields are listed by ascending number, which is the order
in which they are written and in which their names are numbered.
-/

namespace KotlinMetadata

open Wire

/-- What a name in a message stands for, which decides how a renaming treats it. -/
inductive Role where
  /-- Text that no renaming touches: member names, module names, messages. -/
  | plain
  /-- A class, nested segments joined by dots. -/
  | className
  /-- The simple name of a class nested in the class being described. -/
  | nestedName
  /-- A class by its internal name, nested segments joined by dollar signs. -/
  | internalName
  /-- The descriptor of a method. -/
  | methodDescriptor
  /-- The descriptor of a field. -/
  | fieldDescriptor
  deriving DecidableEq, Repr

/-- The types of single values. -/
inductive Leaf where
  /-- A signed 32-bit integer. -/
  | int32
  /-- A truth value. -/
  | bool
  /-- A signed 64-bit integer. -/
  | sint64
  /-- A 32-bit float, held as its bits. -/
  | float
  /-- A 64-bit float, held as its bits. -/
  | double
  /-- Text held in the message itself. -/
  | text
  /-- Text held in the string table and referred to by its index. -/
  | name (role : Role)
  deriving DecidableEq, Repr

/-- The values of a leaf. -/
def Leaf.Value : Leaf → Type
  | int32 => Int32
  | bool => Bool
  | sint64 => Int64
  | float => UInt32
  | double => UInt64
  | text => String
  | name _ => String

instance : (leaf : Leaf) → DecidableEq leaf.Value
  | .int32 => inferInstanceAs (DecidableEq Int32)
  | .bool => inferInstanceAs (DecidableEq Bool)
  | .sint64 => inferInstanceAs (DecidableEq Int64)
  | .float => inferInstanceAs (DecidableEq UInt32)
  | .double => inferInstanceAs (DecidableEq UInt64)
  | .text => inferInstanceAs (DecidableEq String)
  | .name _ => inferInstanceAs (DecidableEq String)

/-- The wire type of a leaf. -/
def Leaf.wire : Leaf → WireType
  | int32 | bool | sint64 | name _ => .varint
  | float => .fixed32
  | double => .fixed64
  | text => .len

/-- The kinds of messages. -/
inductive Kind where
  /-- A class, interface, object or enum. -/
  | classBody
  /-- The top-level declarations of one file. -/
  | package
  | enumEntry
  | function
  | property
  | constructor
  | valueParameter
  | typeAlias
  | contract
  | effect
  | effectExpression
  /-- A reference to a type. -/
  | type
  /-- An argument of a type. -/
  | typeProjection
  | typeParameter
  | typeTable
  | annotationUse
  | annotationArgument
  | annotationValue
  | versionRequirementTable
  | versionRequirement
  | methodSignature
  | fieldSignature
  | propertySignature
  /-- The table in front of every payload. -/
  | stringTable
  /-- One run of entries of the string table. -/
  | nameRecord
  deriving DecidableEq, Repr

/-- What one value of a field is. -/
inductive ValueType where
  /-- A single value. -/
  | leaf (leaf : Leaf)
  /-- A message inside the message. -/
  | message (kind : Kind)
  deriving DecidableEq, Repr

/-- The wire type of a value. -/
def ValueType.wire : ValueType → WireType
  | leaf scalar => scalar.wire
  | message _ => .len

/-- Whether values of the type are messages. -/
def ValueType.isMessage : ValueType → Bool
  | leaf _ => false
  | message _ => true

/-- How often a field occurs. -/
inductive Arity where
  /-- Once; the label names the field when it is missing. -/
  | required (label : String)
  /-- At most once. -/
  | optional
  /-- Any number of times; a packed list is written as one field. -/
  | repeated (packed : Bool)
  deriving DecidableEq, Repr

/-- A field of a kind of message. -/
structure Field where
  /-- The number in its tag. -/
  number : UInt32
  /-- Its name in printed trees. -/
  name : String
  /-- What its values are. -/
  type : ValueType
  /-- How often it occurs. -/
  arity : Arity
  /-- Whether the names inside its values are kept by every renaming. -/
  frozen : Bool := false
  deriving DecidableEq, Repr

namespace Field

/-- A field that occurs once. -/
def required (number : UInt32) (name : String) (leaf : Leaf) (label : String) : Field :=
  { number, name, type := .leaf leaf, arity := .required label }

/-- A field that occurs at most once. -/
def optional (number : UInt32) (name : String) (leaf : Leaf) : Field :=
  { number, name, type := .leaf leaf, arity := .optional }

/-- A list of single values, written as one field. -/
def list (number : UInt32) (name : String) (leaf : Leaf) : Field :=
  { number, name, type := .leaf leaf, arity := .repeated true }

/-- A list of single values, written one field each. -/
def spread (number : UInt32) (name : String) (leaf : Leaf) : Field :=
  { number, name, type := .leaf leaf, arity := .repeated false }

/-- A message that occurs at most once. -/
def part (number : UInt32) (name : String) (kind : Kind) : Field :=
  { number, name, type := .message kind, arity := .optional }

/-- A list of messages. -/
def parts (number : UInt32) (name : String) (kind : Kind) : Field :=
  { number, name, type := .message kind, arity := .repeated false }

/-- Whether a list of the field's values may also come as one length-delimited field. -/
def packable (field : Field) : Bool :=
  match field.arity with
  | .repeated _ => field.type.wire = .varint
  | _ => false

/-- Whether a field with this number and wire type is an occurrence of `field`. -/
def accepts (field : Field) (number : UInt32) (wire : WireType) : Bool :=
  number = field.number && (wire = field.type.wire || field.packable && wire = .len)

end Field

open KotlinMetadata.Field KotlinMetadata.Leaf KotlinMetadata.Role in
/-- The fields that a kind of message knows, by ascending number. -/
def Kind.fields : Kind → List Field
  | classBody =>
      [ optional 1 "flags" int32
      , list 2 "supertype_ids" int32
      , required 3 "name" (name className) "Class.fq_name"
      , optional 4 "companion_object_name" (name nestedName)
      , parts 5 "type_parameters" .typeParameter
      , parts 6 "supertypes" .type
      , list 7 "nested_class_names" (name nestedName)
      , parts 8 "constructors" .constructor
      , parts 9 "functions" .function
      , parts 10 "properties" .property
      , parts 11 "type_aliases" .typeAlias
      , parts 13 "enum_entries" .enumEntry
      , list 16 "sealed_subclasses" (name className)
      , optional 17 "inline_class_underlying_property_name" (name plain)
      , part 18 "inline_class_underlying_type" .type
      , optional 19 "inline_class_underlying_type_id" int32
      , parts 20 "context_receiver_types" .type
      , list 21 "context_receiver_type_ids" int32
      , list 22 "multi_field_value_class_underlying_names" (name plain)
      , parts 23 "multi_field_value_class_underlying_types" .type
      , list 24 "multi_field_value_class_underlying_type_ids" int32
      , part 30 "type_table" .typeTable
      , spread 31 "version_requirements" int32
      , part 32 "version_requirement_table" .versionRequirementTable
      , optional 101 "module_name" (name plain)
      , parts 102 "local_delegated_properties" .property
      , optional 103 "anonymous_object_origin_name" (name internalName)
      , optional 104 "jvm_flags" int32 ]
  | package =>
      [ parts 3 "functions" .function
      , parts 4 "properties" .property
      , parts 5 "type_aliases" .typeAlias
      , part 30 "type_table" .typeTable
      , part 32 "version_requirement_table" .versionRequirementTable
      , optional 101 "module_name" (name plain)
      , parts 102 "local_delegated_properties" .property ]
  | enumEntry =>
      [ optional 1 "name" (name plain) ]
  | function =>
      [ optional 1 "old_flags" int32
      , required 2 "name" (name plain) "Function.name"
      , part 3 "return_type" .type
      , parts 4 "type_parameters" .typeParameter
      , part 5 "receiver_type" .type
      , parts 6 "value_parameters" .valueParameter
      , optional 7 "return_type_id" int32
      , optional 8 "receiver_type_id" int32
      , optional 9 "flags" int32
      , parts 10 "context_receiver_types" .type
      , list 11 "context_receiver_type_ids" int32
      , part 30 "type_table" .typeTable
      , spread 31 "version_requirements" int32
      , part 32 "contract" .contract
      , part 100 "signature" .methodSignature
      , optional 101 "lambda_class_origin_name" (name internalName) ]
  | property =>
      [ optional 1 "old_flags" int32
      , required 2 "name" (name plain) "Property.name"
      , part 3 "return_type" .type
      , parts 4 "type_parameters" .typeParameter
      , part 5 "receiver_type" .type
      , part 6 "setter_value_parameter" .valueParameter
      , optional 7 "getter_flags" int32
      , optional 8 "setter_flags" int32
      , optional 9 "return_type_id" int32
      , optional 10 "receiver_type_id" int32
      , optional 11 "flags" int32
      , parts 12 "context_receiver_types" .type
      , list 13 "context_receiver_type_ids" int32
      , spread 31 "version_requirements" int32
      , part 100 "signature" .propertySignature
      , optional 101 "jvm_flags" int32 ]
  | constructor =>
      [ optional 1 "flags" int32
      , parts 2 "value_parameters" .valueParameter
      , spread 31 "version_requirements" int32
      , part 100 "signature" .methodSignature ]
  | valueParameter =>
      [ optional 1 "flags" int32
      , required 2 "name" (name plain) "ValueParameter.name"
      , part 3 "type" .type
      , part 4 "vararg_element_type" .type
      , optional 5 "type_id" int32
      , optional 6 "vararg_element_type_id" int32 ]
  | typeAlias =>
      [ optional 1 "flags" int32
      , required 2 "name" (name plain) "TypeAlias.name"
      , parts 3 "type_parameters" .typeParameter
      , part 4 "underlying_type" .type
      , optional 5 "underlying_type_id" int32
      , part 6 "expanded_type" .type
      , optional 7 "expanded_type_id" int32
      , parts 8 "annotations" .annotationUse
      , spread 31 "version_requirements" int32 ]
  | contract =>
      [ parts 1 "effects" .effect ]
  | effect =>
      [ optional 1 "effect_type" int32
      , parts 2 "constructor_arguments" .effectExpression
      , part 3 "conclusion" .effectExpression
      , optional 4 "kind" int32 ]
  | effectExpression =>
      [ optional 1 "flags" int32
      , optional 2 "value_parameter_reference" int32
      , optional 3 "constant_value" int32
      , part 4 "is_instance_type" .type
      , optional 5 "is_instance_type_id" int32
      , parts 6 "and_arguments" .effectExpression
      , parts 7 "or_arguments" .effectExpression ]
  | type =>
      [ optional 1 "flags" int32
      , parts 2 "arguments" .typeProjection
      , optional 3 "nullable" bool
      , optional 4 "flexible_type_capabilities_id" (name plain)
      , part 5 "flexible_upper_bound" .type
      , optional 6 "class_name" (name className)
      , optional 7 "type_parameter" int32
      , optional 8 "flexible_upper_bound_id" int32
      , optional 9 "type_parameter_name" (name plain)
      , part 10 "outer_type" .type
      , optional 11 "outer_type_id" int32
      , optional 12 "type_alias_name" (name className)
      , part 13 "abbreviated_type" .type
      , optional 14 "abbreviated_type_id" int32
      , parts 100 "annotations" .annotationUse
      , optional 101 "is_raw" bool ]
  | typeProjection =>
      [ optional 1 "projection" int32
      , part 2 "type" .type
      , optional 3 "type_id" int32 ]
  | typeParameter =>
      [ required 1 "id" int32 "TypeParameter.id"
      , required 2 "name" (name plain) "TypeParameter.name"
      , optional 3 "reified" bool
      , optional 4 "variance" int32
      , parts 5 "upper_bounds" .type
      , list 6 "upper_bound_ids" int32
      , parts 100 "annotations" .annotationUse ]
  | typeTable =>
      [ parts 1 "types" .type
      , optional 2 "first_nullable" int32 ]
  | annotationUse =>
      [ required 1 "class_name" (name className) "Annotation.id"
      , { parts 2 "arguments" .annotationArgument with frozen := true } ]
  | annotationArgument =>
      [ required 1 "name" (name plain) "Annotation.Argument.name_id"
      , { part 2 "value" .annotationValue with arity := .required "Annotation.Argument.value" } ]
  | annotationValue =>
      [ optional 1 "type" int32
      , optional 2 "int_value" sint64
      , optional 3 "float_value" float
      , optional 4 "double_value" double
      , optional 5 "string_value" (name plain)
      , optional 6 "class_name" (name className)
      , optional 7 "enum_value_name" (name plain)
      , part 8 "annotation" .annotationUse
      , parts 9 "array_elements" .annotationValue
      , optional 10 "flags" int32
      , optional 11 "array_dimension_count" int32 ]
  | versionRequirementTable =>
      [ parts 1 "requirements" .versionRequirement ]
  | versionRequirement =>
      [ optional 1 "version" int32
      , optional 2 "version_full" int32
      , optional 3 "level" int32
      , optional 4 "error_code" int32
      , optional 5 "message" (name plain)
      , optional 6 "version_kind" int32 ]
  | methodSignature =>
      [ optional 1 "name" (name plain)
      , optional 2 "desc" (name methodDescriptor) ]
  | fieldSignature =>
      [ optional 1 "name" (name plain)
      , optional 2 "desc" (name fieldDescriptor) ]
  | propertySignature =>
      [ part 1 "field" .fieldSignature
      , part 2 "synthetic_method" .methodSignature
      , part 3 "getter" .methodSignature
      , part 4 "setter" .methodSignature
      , part 5 "delegate_method" .methodSignature ]
  | stringTable =>
      [ parts 1 "records" .nameRecord
      , list 5 "local_names" int32 ]
  | nameRecord =>
      [ optional 1 "range" int32
      , optional 2 "predefined_index" int32
      , optional 3 "operation" int32
      , list 4 "substring_index" int32
      , list 5 "replace_char" int32
      , optional 6 "string" text ]

/-- The field of a kind that a number and a wire type denote. -/
def Kind.field? (kind : Kind) (number : UInt32) (wire : WireType) : Option Field :=
  kind.fields.find? (·.accepts number wire)

/-- Whether a number and a wire type denote a message inside messages of a kind. -/
def Kind.nests (kind : Kind) (number : UInt32) (wire : WireType) : Bool :=
  (kind.field? number wire).any (·.type.isMessage)

/-- Every kind lists its fields by strictly ascending number. -/
theorem Kind.fields_ascending (kind : Kind) :
    kind.fields.Pairwise fun a b => a.number < b.number := by
  cases kind <;> decide

end KotlinMetadata
