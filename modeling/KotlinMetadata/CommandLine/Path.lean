/-!
# Paths

The last part of a path and its stem.
-/

namespace KotlinMetadata.CommandLine

/-- The parts of a path that name something: not the empty ones and not those that stay where they
are. -/
def pathParts (path : String) : List String :=
  (path.splitOn "/").filter fun part => part ≠ "" && part ≠ "."

/-- A file's name without what follows its last dot, unless nothing precedes that. -/
def withoutExtension (name : String) : String :=
  let kept := (name.toList.reverse.dropWhile (· ≠ '.')).tail
  if kept.isEmpty then name else String.ofList kept.reverse

/-- The stem of the file at a path; none if the path does not end in a name. -/
def stem? (path : String) : Option String :=
  match (pathParts path).getLast? with
  | none | some ".." => none
  | some name => some (withoutExtension name)

end KotlinMetadata.CommandLine
