import KotlinMetadata.Names.Resolver

/-!
# Numbering names

Writing a payload numbers its distinct names by first occurrence.  Each number
gets a string and a way to understand it: plain text is stored as it is, a
known class by its position, and any other class as a descriptor, unless it
has a dollar sign, which the way back would turn into a dot.  Neighbours that
are understood alike share a record.  Names may also be entered one after
another; a name gets its number as it is entered.
-/

namespace KotlinMetadata

open Wire

/-- A class name without the mark of a local class, and whether it had one. -/
def splitLocal (name : List Char) : Bool × List Char :=
  match name with
  | '.' :: bare => (true, bare)
  | _ => (false, name)

/-- Whether a class name is marked as local. -/
def isLocalName (name : String) : Bool :=
  (splitLocal name.toList).1

/-- The string to store for a name, and the record of a run of one that restores the name. -/
def TableName.stored : TableName → String × NameRecord
  | .plain text => (text, {})
  | .className name =>
      let (isLocal, bare) := splitLocal name.toList
      match predefinedNames.idxOf? (String.ofList bare), isLocal with
      | some position, false => ("", { predefined := some (Int32.ofNat position) })
      | _, _ =>
          if '$' ∈ bare then (String.ofList bare, {})
          else
            (String.ofList ('L' :: replaceChar '.' '$' bare ++ [';']),
              { operation := some .descriptorToClass })

/-- Whether two records are understood alike, whatever their ranges. -/
def NameRecord.sameShape (a b : NameRecord) : Bool :=
  { a with range := none } = { b with range := none }

/-- Runs of entries that are understood alike, each as one record. -/
def groupRecords : List NameRecord → List NameRecord
  | [] => []
  | record :: rest =>
      match groupRecords rest with
      | [] => [record]
      | next :: others =>
          if next.sameShape record then
            { next with range := some (next.range.getD 1 + 1) } :: others
          else record :: next :: others

/-- Distinct names, each of which is numbered by its position. -/
structure Numbering where
  /-- The names. -/
  names : List TableName

namespace Numbering

/-- Names numbered by first occurrence. -/
def ofList (names : List TableName) : Numbering :=
  ⟨names.eraseDups⟩

/-- The number of a name. -/
def index (numbering : Numbering) (name : TableName) : Int32 :=
  Int32.ofNat (numbering.names.idxOf name)

/-- No names. -/
def empty : Numbering :=
  ⟨[]⟩

/-- A name entered: the next number is its own, unless it has a number already. -/
def enter (numbering : Numbering) (name : TableName) : Numbering :=
  if name ∈ numbering.names then numbering else ⟨numbering.names ++ [name]⟩

/-- Names entered one after another, and the number that each of them gets at that moment. -/
def enterAll (numbering : Numbering) : List TableName → Numbering × List Int32
  | [] => (numbering, [])
  | name :: rest =>
      let entered := numbering.enter name
      let (final, indices) := entered.enterAll rest
      (final, entered.index name :: indices)

/-- The strings, one for each name. -/
def strings (numbering : Numbering) : List String :=
  numbering.names.map fun name => name.stored.1

/-- The numbers of local classes. -/
def localNames (numbering : Numbering) : List Int32 :=
  numbering.names.zipIdx.filterMap fun
    | (.className name, index) => if isLocalName name then some (Int32.ofNat index) else none
    | (.plain _, _) => none

/-- The table that restores the names from the strings. -/
def table (numbering : Numbering) : StringTable where
  records := groupRecords (numbering.names.map fun name => name.stored.2)
  localNames := numbering.localNames

/-- The look-up in a numbering's own table over its own strings. -/
def resolver (numbering : Numbering) : Resolver :=
  numbering.table.resolver numbering.strings

end Numbering

end KotlinMetadata
