import Std.Data.HashMap
import KotlinMetadata.Renaming.Descriptor

/-!
# Renamings

A renaming says what becomes of a class name and of the descriptors of methods
and fields.  Most renamings are given by their class names alone, and change
descriptors reference by reference.
-/

namespace KotlinMetadata

/-- What becomes of names.  Class names are internal names. -/
structure Renaming where
  /-- The new name of a class. -/
  className : String → String
  /-- The new descriptor of a method. -/
  methodDescriptor : String → String
  /-- The new descriptor of a field. -/
  fieldDescriptor : String → String

namespace Renaming

/-- The renaming that changes nothing. -/
def identity : Renaming where
  className name := name
  methodDescriptor descriptor := descriptor
  fieldDescriptor descriptor := descriptor

/-- The renaming that applies `rename` to class names wherever they occur. -/
def ofClassNames (rename : String → String) : Renaming where
  className := rename
  methodDescriptor := Descriptor.mapClassNames rename
  fieldDescriptor := Descriptor.mapClassNames rename

end Renaming

/-- New names for some classes. -/
structure ClassMap where
  /-- The new name of each class that has one. -/
  entries : Std.HashMap String String := {}

namespace ClassMap

/-- A class gets a new name, in place of one it may have had. -/
def insert (classes : ClassMap) (source target : String) : ClassMap :=
  ⟨classes.entries.insert source target⟩

/-- The classes of a list with their new names; later ones win. -/
def ofList (pairs : List (String × String)) : ClassMap :=
  pairs.foldl (fun classes (source, target) => classes.insert source target) {}

/-- How many classes have a new name. -/
def size (classes : ClassMap) : Nat :=
  classes.entries.size

/-- The new name of a class; one without keeps its own. -/
def apply (classes : ClassMap) (name : String) : String :=
  classes.entries.getD name name

theorem apply_empty (name : String) : ({} : ClassMap).apply name = name := by
  simp [apply]

theorem apply_insert (classes : ClassMap) (source target name : String) :
    (classes.insert source target).apply name =
      if source = name then target else classes.apply name := by
  simp [apply, insert, Std.HashMap.getD_insert]

/-- The renaming by these class names. -/
def toRenaming (classes : ClassMap) : Renaming :=
  .ofClassNames classes.apply

end ClassMap

end KotlinMetadata
