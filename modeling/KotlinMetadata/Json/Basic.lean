/-!
# JSON values

Numbers are kept as they are spelled.  Objects keep the order of their
members, and may repeat a name.
-/

namespace KotlinMetadata

/-- A JSON value. -/
inductive Json where
  | null
  | bool (value : Bool)
  /-- A number, by its spelling. -/
  | number (literal : String)
  | string (value : String)
  /-- A string, or an object with a name, that spells no text: it has an escaped surrogate without
  a partner. -/
  | broken
  | array (values : List Json)
  | object (members : List (String × Json))

namespace Json

/-- A whole number. -/
def int (value : Int) : Json :=
  number (toString value)

/-- A number that is not negative. -/
def nat (value : Nat) : Json :=
  number (toString value)

/-- A value, or null. -/
def ofOption {α : Type} (toJson : α → Json) : Option α → Json
  | none => null
  | some value => toJson value

mutual

/-- A value with the members of all objects in it ordered by name. -/
def sortMembers : Json → Json
  | array values => array (sortEach values)
  | object members => object ((sortInside members).mergeSort fun a b => decide (a.1 ≤ b.1))
  | value => value

/-- `sortMembers` on every value of a list. -/
def sortEach : List Json → List Json
  | [] => []
  | value :: rest => sortMembers value :: sortEach rest

/-- `sortMembers` on every member's value. -/
def sortInside : List (String × Json) → List (String × Json)
  | [] => []
  | (name, value) :: rest => (name, sortMembers value) :: sortInside rest

end

end Json

end KotlinMetadata
