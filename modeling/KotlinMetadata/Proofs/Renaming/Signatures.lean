import KotlinMetadata.Proofs.Renaming.Descriptor
import KotlinMetadata.Renaming.Basic

/-!
# Descriptors as trees

A descriptor is the spelling of the type of a field or of a method.  The scan
that renames descriptors knows nothing of types, and yet it is a map on their
trees: it replaces the names of classes and keeps all else, whatever letters
the names have, as long as none of them has the semicolon that ends it.
-/

namespace KotlinMetadata.Descriptor

/-- The types that are not made of others. -/
inductive Primitive where
  | byte
  | char
  | double
  | float
  | int
  | long
  | short
  | boolean
  deriving DecidableEq, Repr

/-- A primitive type is spelt with one letter. -/
def Primitive.letter : Primitive → Char
  | byte => 'B'
  | char => 'C'
  | double => 'D'
  | float => 'F'
  | int => 'I'
  | long => 'J'
  | short => 'S'
  | boolean => 'Z'

/-- The type of a value. -/
inductive FieldType (Name : Type) where
  | primitive (type : Primitive)
  | array (element : FieldType Name)
  | reference (name : Name)
  deriving DecidableEq, Repr

/-- What a descriptor spells: the type of a field, or the types of the parameters and of the result
of a method.  A method without a result is void. -/
inductive Signature (Name : Type) where
  | field (type : FieldType Name)
  | method (parameters : List (FieldType Name)) (result : Option (FieldType Name))
  deriving DecidableEq, Repr

/-- A class name that a reference can hold. -/
structure ReferenceName where
  /-- The internal name. -/
  text : String
  /-- A semicolon would end the reference. -/
  endless : ';' ∉ text.toList

namespace FieldType

/-- A type with other names of classes. -/
def map {Name Other : Type} (rename : Name → Other) : FieldType Name → FieldType Other
  | primitive type => primitive type
  | array element => array (element.map rename)
  | reference name => reference (rename name)

/-- The spelling of a type. -/
def chars : FieldType String → List Char
  | primitive type => [type.letter]
  | array element => '[' :: element.chars
  | reference name => 'L' :: (name.toList ++ [';'])

end FieldType

namespace Signature

/-- A signature with other names of classes. -/
def map {Name Other : Type} (rename : Name → Other) : Signature Name → Signature Other
  | field type => field (type.map rename)
  | method parameters result =>
      method (parameters.map (FieldType.map rename)) (result.map (FieldType.map rename))

/-- The spelling of a signature. -/
def chars : Signature String → List Char
  | field type => type.chars
  | method parameters result =>
      '(' :: (parameters.flatMap FieldType.chars ++ ')' :: result.elim ['V'] FieldType.chars)

/-- The descriptor of a signature. -/
def print (signature : Signature String) : String :=
  String.ofList signature.chars

end Signature

theorem Primitive.letter_ne (type : Primitive) : type.letter ≠ 'L' := by
  cases type <;> decide

variable (rename : String → String)

/-- The scan renames a type and goes on behind it. -/
theorem mapChars_fieldType (type : FieldType ReferenceName) (rest : List Char) :
    mapChars (onChars rename) none ((type.map ReferenceName.text).chars ++ rest) =
      (type.map fun name => rename name.text).chars ++ mapChars (onChars rename) none rest := by
  induction type with
  | primitive type => exact mapChars_none_cons type.letter_ne rest
  | array element ih =>
      exact (mapChars_none_cons (by decide) _).trans (congrArg ('[' :: ·) ih)
  | reference name =>
      calc
        _ = mapChars (onChars rename) none ('L' :: (name.text.toList ++ ';' :: rest)) := by
          simp [FieldType.map, FieldType.chars]
        _ = 'L' :: (onChars rename name.text.toList ++
              ';' :: mapChars (onChars rename) none rest) :=
          mapChars_none_reference name.endless rest
        _ = _ := by simp [FieldType.map, FieldType.chars, onChars]

/-- The scan renames the types of parameters one after another. -/
theorem mapChars_parameters (parameters : List (FieldType ReferenceName)) (rest : List Char) :
    mapChars (onChars rename) none
        ((parameters.map (FieldType.map ReferenceName.text)).flatMap FieldType.chars ++ rest) =
      (parameters.map (FieldType.map fun name => rename name.text)).flatMap FieldType.chars ++
        mapChars (onChars rename) none rest := by
  induction parameters with
  | nil => rfl
  | cons type parameters ih =>
      simp only [List.map_cons, List.flatMap_cons, List.append_assoc]
      rw [mapChars_fieldType, ih]

/-- The scan renames a type at the end. -/
theorem mapChars_last (type : FieldType ReferenceName) :
    mapChars (onChars rename) none (type.map ReferenceName.text).chars =
      (type.map fun name => rename name.text).chars := by
  simpa [mapChars] using mapChars_fieldType rename type []

/-- The scan renames a signature. -/
theorem mapChars_signature (signature : Signature ReferenceName) :
    mapChars (onChars rename) none (signature.map ReferenceName.text).chars =
      (signature.map fun name => rename name.text).chars := by
  cases signature with
  | field type => exact mapChars_last rename type
  | method parameters result =>
      have result_eq : mapChars (onChars rename) none
          ((result.map (FieldType.map ReferenceName.text)).elim ['V'] FieldType.chars) =
          (result.map (FieldType.map fun name => rename name.text)).elim ['V'] FieldType.chars := by
        cases result with
        | none => rfl
        | some type => exact mapChars_last rename type
      rw [Signature.map, Signature.chars, mapChars_none_cons (by decide), mapChars_parameters,
        mapChars_none_cons (by decide), result_eq]
      rfl

theorem mapClassNames_print (signature : Signature ReferenceName) :
    mapClassNames rename (signature.map ReferenceName.text).print =
      (signature.map fun name => rename name.text).print := by
  rw [← String.toList_inj, toList_mapClassNames, Signature.print, Signature.print,
    String.toList_ofList, String.toList_ofList]
  exact mapChars_signature rename signature

/-- A renaming of classes renames the descriptors of methods and of fields by the classes of their
signatures, and changes nothing else in them. -/
theorem ofClassNames_print (signature : Signature ReferenceName) :
    let names := Renaming.ofClassNames rename
    let renamed := signature.map fun name => names.className name.text
    names.methodDescriptor (signature.map ReferenceName.text).print = renamed.print ∧
      names.fieldDescriptor (signature.map ReferenceName.text).print = renamed.print :=
  ⟨mapClassNames_print rename signature, mapClassNames_print rename signature⟩

/-- Letters that open references elsewhere are part of a name inside one. -/
example : mapClassNames (fun name => name ++ "L") "(I[La/(L[B;J)V" = "(I[La/(L[BL;J)V" := by
  decide

end KotlinMetadata.Descriptor
