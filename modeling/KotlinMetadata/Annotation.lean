/-!
# Annotations

The values that an annotation in a class file may hold, and annotations as
lists of named values in declaration order.
-/

namespace KotlinMetadata

/-- The value of an annotation element. -/
inductive ElementValue where
  | byte (value : Int8)
  | boolean (value : Bool)
  | char (value : Char)
  | short (value : Int16)
  | int (value : Int32)
  | long (value : Int64)
  /-- A 32-bit float, held as its bits. -/
  | float (bits : UInt32)
  /-- A 64-bit float, held as its bits. -/
  | double (bits : UInt64)
  | string (value : String)
  /-- A class literal, as a descriptor. -/
  | type (descriptor : String)
  /-- A constant of the enum with a given descriptor. -/
  | enum (descriptor value : String)
  /-- An annotation: its descriptor and its elements. -/
  | nested (descriptor : String) (elements : Option (List (String × ElementValue)))
  | array (values : List ElementValue)

/-- Named values in declaration order. -/
abbrev Elements := List (String × ElementValue)

/-- An annotation.  One written without any elements is told apart from one with an empty list of
them. -/
structure Annotation where
  /-- The descriptor of its type. -/
  descriptor : String
  /-- Its elements. -/
  elements : Option Elements := none

namespace ElementValue

/-- The integer, if the value is one. -/
def int? : ElementValue → Option Int32
  | int value => some value
  | _ => none

/-- The string, if the value is one. -/
def string? : ElementValue → Option String
  | string value => some value
  | _ => none

/-- The integers, if the value is an array of them. -/
def ints? : ElementValue → Option (List Int32)
  | array values => values.mapM int?
  | _ => none

/-- The strings, if the value is an array of them. -/
def strings? : ElementValue → Option (List String)
  | array values => values.mapM string?
  | _ => none

/-- An array of integers. -/
def ints (values : List Int32) : ElementValue :=
  array (values.map int)

/-- An array of strings. -/
def strings (values : List String) : ElementValue :=
  array (values.map string)

end ElementValue

namespace Annotation

/-- The annotation with one more element at the end. -/
def add (note : Annotation) (name : String) (value : ElementValue) : Annotation :=
  { note with elements := some (note.elements.getD [] ++ [(name, value)]) }

/-- The value of the first element with a given name. -/
def get? (note : Annotation) (name : String) : Option ElementValue :=
  note.elements.bind (List.lookup name)

end Annotation

end KotlinMetadata
