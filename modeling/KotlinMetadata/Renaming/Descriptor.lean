/-!
# Class references inside descriptors

A descriptor refers to a class by `L`, an internal name and `;`.  References
are found by scanning alone: a reference begins at the first `L` outside
another reference and ends at the next `;`.  One that does not end is text
like any other.
-/

namespace KotlinMetadata.Descriptor

/-- Scans a descriptor.  Inside a reference, `open?` holds its name so far in reverse. -/
def mapChars (rename : List Char → List Char) : Option (List Char) → List Char → List Char
  | none, [] => []
  | none, c :: rest =>
      if c = 'L' then mapChars rename (some []) rest else c :: mapChars rename none rest
  | some name, [] => 'L' :: name.reverse
  | some name, c :: rest =>
      if c = ';' then 'L' :: rename name.reverse ++ ';' :: mapChars rename none rest
      else mapChars rename (some (c :: name)) rest

/-- A descriptor with the name of every class reference replaced. -/
def mapClassNames (rename : String → String) (descriptor : String) : String :=
  String.ofList <|
    mapChars (fun name => (rename (String.ofList name)).toList) none descriptor.toList

end KotlinMetadata.Descriptor
