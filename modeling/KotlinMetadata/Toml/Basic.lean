/-!
# Configuration documents

The values of a TOML document, and how its tables grow.  A table remembers how
it came to be, because that decides what may still be added to it: a header
may give members to a table that so far is only part of the path to others,
dotted keys may extend only tables that dotted keys made, and a table written
inline is complete.
-/

namespace KotlinMetadata

/-- How a table came to be. -/
inductive TableOrigin where
  /-- By a header of its own. -/
  | header
  /-- As part of the path in another table's header. -/
  | path
  /-- As part of a dotted key. -/
  | dotted
  /-- Between braces. -/
  | inline
  deriving DecidableEq, Repr

/-- A value of a document. -/
inductive Toml where
  | string (value : String)
  | integer (value : Int)
  | boolean (value : Bool)
  /-- A float, which nothing here looks into. -/
  | float
  /-- A date or a time, which nothing here looks into. -/
  | moment
  | array (values : List Toml)
  | table (origin : TableOrigin) (members : List (String × Toml))
  /-- The tables of an array of tables, the last one in front. -/
  | tables (elements : List (List (String × Toml)))

namespace Toml

/-- The members of a table. -/
abbrev Members := List (String × Toml)

/-- The members with a value put in the place of one, or at the end. -/
def set (members : Members) (key : String) (value : Toml) : Members :=
  match members with
  | [] => [(key, value)]
  | (name, old) :: rest =>
      if name = key then (name, value) :: rest else (name, old) :: set rest key value

/-- The members with one more, unless there is one of that name. -/
def add? (members : Members) (key : String) (value : Toml) : Option Members :=
  match members.lookup key with
  | some _ => none
  | none => some (members ++ [(key, value)])

/-- Adds a value at the end of a path of dotted keys that leads on from members, which so far end
the path if `ends`.  Tables on the path are made if they are missing; it may lead through tables
without a header of their own, but the one it ends in must have been made by dotted keys. -/
def extend (key : String) (value : Toml) (ends : Bool) : List String → Members → Option Members
  | [], members => if ends then add? members key value else none
  | step :: path, members =>
      match members.lookup step with
      | none => do
          let inner ← extend key value true path []
          return set members step (.table .dotted inner)
      | some (.table .dotted inner) => do
          let inner ← extend key value true path inner
          return set members step (.table .dotted inner)
      | some (.table .path inner) => do
          let inner ← extend key value false path inner
          return set members step (.table .path inner)
      | some (.tables (last :: others)) => do
          let last ← extend key value false path last
          return set members step (.tables (last :: others))
      | some _ => none

/-- Adds a value under a dotted key, given as the path to the key and the key itself. -/
def define (path : List String) (key : String) (value : Toml) : Members → Option Members :=
  extend key value true path

/-- Changes the members at the end of a path of headers.  Of an array of tables the last one is
meant.  Tables on the path are made if they are missing. -/
def changeAt (change : Members → Option Members) : List String → Members → Option Members
  | [], members => change members
  | key :: path, members =>
      match members.lookup key with
      | none => do
          let inner ← changeAt change path []
          return set members key (.table .path inner)
      | some (.table .inline _) => none
      | some (.table origin inner) => do
          let inner ← changeAt change path inner
          return set members key (.table origin inner)
      | some (.tables (last :: others)) => do
          let last ← changeAt change path last
          return set members key (.tables (last :: others))
      | some _ => none

/-- Gives a table a header of its own, once. -/
def openTable (key : String) (members : Members) : Option Members :=
  match members.lookup key with
  | none => some (set members key (.table .header []))
  | some (.table .path inner) => some (set members key (.table .header inner))
  | some _ => none

/-- Adds a table to an array of tables. -/
def openElement (key : String) (members : Members) : Option Members :=
  match members.lookup key with
  | none => some (set members key (.tables [[]]))
  | some (.tables elements) => some (set members key (.tables ([] :: elements)))
  | some _ => none

end Toml

end KotlinMetadata
