import KotlinMetadata.Metadata

/-!
# Declarations from scratch

The messages of declarations given by their essential parts, everything else
absent or empty.
-/

namespace KotlinMetadata.Declaration

/-- A use of an annotation without arguments. -/
def annotationUse (className : String) : Message .annotationUse :=
  .message (.cons (.exactly (.leaf _ className)) (.cons .empty .nil)) []

/-- A type as an argument. -/
def projection (type : Message .type) : Message .typeProjection :=
  .message (.cons .absent (.cons (.present type) (.cons .absent .nil))) []

/-- What a type refers to. -/
inductive Classifier where
  /-- A class. -/
  | className (name : String)
  /-- A type parameter, by its number. -/
  | parameter (id : Int32)
  deriving DecidableEq, Repr

namespace Classifier

/-- The class, if it is one. -/
def name? : Classifier → Option String
  | className name => some name
  | parameter _ => none

/-- The number of the type parameter, if it is one. -/
def id? : Classifier → Option Int32
  | className _ => none
  | parameter id => some id

end Classifier

/-- A type with its arguments and annotations. -/
def type (classifier : Classifier) (arguments : List (Message .type))
    (annotations : List (Message .annotationUse)) : Message .type :=
  .message
    (.cons .absent <|
      .cons (.ofList (arguments.map projection)) <|
      .cons .absent <| .cons .absent <| .cons .absent <|
      .cons (.leafOption _ classifier.name?) <|
      .cons (.leafOption _ classifier.id?) <|
      .cons .absent <| .cons .absent <| .cons .absent <| .cons .absent <| .cons .absent <|
      .cons .absent <| .cons .absent <|
      .cons (.ofList annotations) <|
      .cons .absent .nil)
    []

/-- A type parameter. -/
def typeParameter (id : Int32) (name : String) (bounds : List (Message .type)) :
    Message .typeParameter :=
  .message
    (.cons (.exactly (.leaf _ id)) <|
      .cons (.exactly (.leaf _ name)) <|
      .cons .absent <| .cons .absent <|
      .cons (.ofList bounds) <|
      .cons .empty <| .cons .empty .nil)
    []

/-- A value parameter. -/
def valueParameter (name : String) (type : Message .type) : Message .valueParameter :=
  .message
    (.cons .absent <|
      .cons (.exactly (.leaf _ name)) <|
      .cons (.present type) <|
      .cons .absent <| .cons .absent <| .cons .absent .nil)
    []

/-- The name and descriptor of a method. -/
def methodSignature (name descriptor : String) : Message .methodSignature :=
  .message
    (.cons (.present (.leaf _ name)) <| .cons (.present (.leaf _ descriptor)) .nil) []

/-- The name and descriptor of a field. -/
def fieldSignature (name descriptor : String) : Message .fieldSignature :=
  .message
    (.cons (.present (.leaf _ name)) <| .cons (.present (.leaf _ descriptor)) .nil) []

/-- The field and getter of a property. -/
def propertySignature (field : Option (Message .fieldSignature))
    (getter : Option (Message .methodSignature)) : Message .propertySignature :=
  .message
    (.cons (.ofOption field) <| .cons .absent <| .cons (.ofOption getter) <|
      .cons .absent <| .cons .absent .nil)
    []

/-- A function. -/
def function (name : String) (typeParameters : List (Message .typeParameter))
    (parameters : List (Message .valueParameter)) (returnType : Option (Message .type))
    (signature : Option (Message .methodSignature)) : Message .function :=
  .message
    (.cons .absent <|
      .cons (.exactly (.leaf _ name)) <|
      .cons (.ofOption returnType) <|
      .cons (.ofList typeParameters) <|
      .cons .absent <|
      .cons (.ofList parameters) <|
      .cons .absent <| .cons .absent <| .cons .absent <| .cons .empty <| .cons .empty <|
      .cons .absent <| .cons .empty <| .cons .absent <|
      .cons (.ofOption signature) <|
      .cons .absent .nil)
    []

/-- A property. -/
def property (name : String) (type : Option (Message .type))
    (signature : Option (Message .propertySignature)) : Message .property :=
  .message
    (.cons .absent <|
      .cons (.exactly (.leaf _ name)) <|
      .cons (.ofOption type) <|
      .cons .empty <| .cons .absent <| .cons .absent <| .cons .absent <| .cons .absent <|
      .cons .absent <| .cons .absent <| .cons .absent <| .cons .empty <| .cons .empty <|
      .cons .empty <|
      .cons (.ofOption signature) <|
      .cons .absent .nil)
    []

/-- A type alias, by its expansion. -/
def typeAlias (name : String) (typeParameters : List (Message .typeParameter))
    (expansion : Message .type) : Message .typeAlias :=
  .message
    (.cons .absent <|
      .cons (.exactly (.leaf _ name)) <|
      .cons (.ofList typeParameters) <|
      .cons .absent <| .cons .absent <|
      .cons (.present expansion) <|
      .cons .absent <| .cons .empty <| .cons .empty .nil)
    []

/-- The declarations of a class or of a file. -/
structure Members where
  functions : List (Message .function) := []
  properties : List (Message .property) := []
  aliases : List (Message .typeAlias) := []

/-- The declarations of a file. -/
def package (members : Members) : Message .package :=
  .message
    (.cons (.ofList members.functions) <|
      .cons (.ofList members.properties) <|
      .cons (.ofList members.aliases) <|
      .cons .absent <| .cons .absent <| .cons .absent <| .cons .empty .nil)
    []

/-- A class.  Nested classes are given by their simple names. -/
def classBody (name : String) (typeParameters : List (Message .typeParameter))
    (supertypes : List (Message .type)) (companion : Option String)
    (nested sealedSubclasses : List String) (members : Members) : Message .classBody :=
  .message
    (.cons .absent <|
      .cons .empty <|
      .cons (.exactly (.leaf _ name)) <|
      .cons (.leafOption _ companion) <|
      .cons (.ofList typeParameters) <|
      .cons (.ofList supertypes) <|
      .cons (.leafList _ nested) <|
      .cons .empty <|
      .cons (.ofList members.functions) <|
      .cons (.ofList members.properties) <|
      .cons (.ofList members.aliases) <|
      .cons .empty <|
      .cons (.leafList _ sealedSubclasses) <|
      .cons .absent <| .cons .absent <| .cons .absent <| .cons .empty <| .cons .empty <|
      .cons .empty <| .cons .empty <| .cons .empty <| .cons .absent <| .cons .empty <|
      .cons .absent <| .cons .absent <| .cons .empty <| .cons .absent <| .cons .absent .nil)
    []

end KotlinMetadata.Declaration
