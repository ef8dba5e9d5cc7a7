import KotlinMetadata.Names.Numbering
import KotlinMetadata.Renaming.Basic

/-!
# Class names as trees spell them

Trees join nested classes with dots where internal names have dollar signs,
mark local classes with a leading dot, and name the classes nested in a class
by their simple names.  Renamings know internal names only, so a name is
turned into one, renamed and turned back.  A name that the renaming leaves
alone comes back as it was.
-/

namespace KotlinMetadata

/-- A class name up to its last slash, and the rest. -/
def splitPackage (name : List Char) : List Char × List Char :=
  ((name.reverse.dropWhile (· ≠ '/')).reverse, (name.reverse.takeWhile (· ≠ '/')).reverse)

/-- The first `count` dollar signs turned into dots. -/
def dotFirst : Nat → List Char → List Char
  | 0, chars => chars
  | _, [] => []
  | count + 1, c :: rest =>
      if c = '$' then '.' :: dotFirst count rest else c :: dotFirst (count + 1) rest

/-- A tree's class name without its local mark, as an internal name. -/
def internalName (name : String) : String :=
  String.ofList (replaceChar '.' '$' (splitLocal name.toList).2)

namespace Renaming

/-- The new form of a class name without its local mark, from the old form and the new internal
name.  In a name that mixes dots and dollar signs, as many nested segments as before are joined by
dots. -/
def restore (bare mapped : List Char) : List Char :=
  if '$' ∈ bare then
    let (package, simple) := splitPackage mapped
    package ++ dotFirst ((splitPackage bare).2.count '.') simple
  else replaceChar '$' '.' mapped

/-- The new name of a class, as trees spell it. -/
def treeName (rename : Renaming) (name : String) : String :=
  let (isLocal, bare) := splitLocal name.toList
  let mapped := rename.className (internalName name)
  let renamed := if mapped = internalName name then bare else restore bare mapped.toList
  String.ofList (if isLocal then localMarker :: renamed else renamed)

/-- The new simple name of a class nested in `outer`: what follows the new name of `outer`, or
else the last segment of the new name. -/
def nestedName (rename : Renaming) (outer simple : String) : String :=
  let outer := internalName outer
  let mapped := rename.className s!"{outer}${simple}"
  if mapped = s!"{outer}${simple}" then simple
  else
    match List.isPrefixOf? (s!"{rename.className outer}$").toList mapped.toList with
    | some rest => String.ofList rest
    | none =>
        String.ofList (mapped.toList.reverse.takeWhile fun c => c ≠ '$' ∧ c ≠ '/').reverse

/-- The new form of a name with a given role, in a tree whose class is `outer`. -/
def apply (rename : Renaming) (outer : String) : Role → String → String
  | .plain, text => text
  | .className, name => rename.treeName name
  | .nestedName, name => rename.nestedName outer name
  | .internalName, name => rename.className name
  | .methodDescriptor, descriptor => rename.methodDescriptor descriptor
  | .fieldDescriptor, descriptor => rename.fieldDescriptor descriptor

end Renaming

end KotlinMetadata
