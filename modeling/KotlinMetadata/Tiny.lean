import KotlinMetadata.Renaming.Basic
import KotlinMetadata.Text.Lines
import KotlinMetadata.Text.Quoted

/-!
# Tiny mapping files

A mapping file names classes, and their members, in several namespaces.  Its
first line tells the layout and the namespaces; a line that begins with the
layout's tag for classes holds one name for each of them.  Everything else is
skipped.  From a file and two namespaces comes the map of class names from one
to the other.
-/

namespace KotlinMetadata.Tiny

/-- Why a mapping file cannot be used. -/
inductive MappingError where
  /-- The first line belongs to no known layout. -/
  | unsupportedFormat (line : String)
  /-- A namespace is not among those of the file. -/
  | unknownNamespace (name : String)
  /-- A class has too few names. -/
  | malformed (line expected : Nat)
  deriving DecidableEq, Repr

/-- The fault in words. -/
def MappingError.message : MappingError → String
  | unsupportedFormat line => s!"Unsupported mapping format: {Text.quote line}"
  | unknownNamespace name => s!"Unknown namespace: {name}"
  | malformed line expected =>
      s!"Malformed mapping on line {line}: expected {expected} columns"

/-- What the first line of a file says. -/
structure Layout where
  /-- The first column of a class. -/
  tag : List Char
  /-- The namespaces, in the order of their columns. -/
  namespaces : List (List Char)
  deriving DecidableEq

/-- The layout that the columns of a first line describe. -/
def Layout.ofColumns? : List (List Char) → Option Layout
  | ['v', '1'] :: namespaces => some { tag := "CLASS".toList, namespaces }
  | ['t', 'i', 'n', 'y'] :: ['2'] :: _ :: namespaces => some { tag := ['c'], namespaces }
  | _ => none

/-- The columns of a line. -/
def columns (line : List Char) : List (List Char) :=
  Text.split '\t' line

/-- The layout that a first line describes. -/
def layoutOf (line : List Char) : Except MappingError Layout :=
  match Layout.ofColumns? (columns line) with
  | some layout => .ok layout
  | none => .error (.unsupportedFormat (String.ofList line))

/-- The position of a namespace. -/
def Layout.position (layout : Layout) (name : String) : Except MappingError Nat :=
  match layout.namespaces.idxOf? name.toList with
  | some position => .ok position
  | none => .error (.unknownNamespace name)

/-- Whether a line is a comment or tells of a member. -/
def isSkipped (line : List Char) : Bool :=
  line.head? = some '\t' || line.head? = some '#'

/-- The names in a line that tells of a class; none in any other. -/
def Layout.classNames? (layout : Layout) (line : List Char) : Option (List (List Char)) :=
  if isSkipped line then none
  else
    match columns line with
    | tag :: names => if tag = layout.tag then some names else none
    | [] => none

/-- The map after one more line, which has a given number.  A class needs a name for each namespace,
and one in the source column. -/
def addLine (layout : Layout) (source target : Nat) (classes : ClassMap) (number : Nat)
    (line : List Char) : Except MappingError ClassMap :=
  match layout.classNames? line with
  | none => .ok classes
  | some names =>
      if short : names.length < layout.namespaces.length ∨ names.length ≤ source then
        .error (.malformed number (layout.namespaces.length + 1))
      else
        have inside : source < names.length := Nat.lt_of_not_le (not_or.mp short).2
        let old := names[source]
        let new := names.getD target []
        if old.isEmpty || new.isEmpty || old = new then .ok classes
        else .ok (classes.insert (String.ofList old) (String.ofList new))

/-- The map after more lines, the first of which has a given number. -/
def addLines (layout : Layout) (source target : Nat) (classes : ClassMap) :
    Nat → List (List Char) → Except MappingError ClassMap
  | _, [] => .ok classes
  | number, line :: rest => do
      addLines layout source target (← addLine layout source target classes number line)
        (number + 1) rest

/-- The new names of the classes in a mapping file, from one namespace to another. -/
def read (text source target : String) : Except MappingError ClassMap := do
  let lines := Text.lines text.toList
  let layout ← layoutOf (lines.headD [])
  let sourceColumn ← layout.position source
  let targetColumn ← layout.position target
  addLines layout sourceColumn targetColumn {} 2 lines.tail

end KotlinMetadata.Tiny
