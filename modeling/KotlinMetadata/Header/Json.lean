import KotlinMetadata.Header
import KotlinMetadata.Json.Basic

/-!
# Headers as JSON

A header is an object whose members are named as the elements of the
annotation are.  Members without a meaning are passed over when one is read;
values that a header need not have are left out when one is shown.
-/

namespace KotlinMetadata

namespace Json

/-- A whole number of 32 bits.  A negative zero is none. -/
def int32? : Json → Option Int32
  | number literal =>
      if literal = "-0" then none
      else
        (literal.toInt?.filter fun value =>
          decide (Int32.minValue.toInt ≤ value) && decide (value ≤ Int32.maxValue.toInt)).map
            Int32.ofInt
  | _ => none

/-- The text of a string. -/
def string? : Json → Option String
  | string value => some value
  | _ => none

/-- What the values of an array hold. -/
def list? {α : Type} (read : Json → Option α) : Json → Option (List α)
  | array values => values.mapM read
  | _ => none

/-- What a value holds, or nothing if it is null. -/
def optional? {α : Type} (read : Json → Option α) : Json → Option (Option α)
  | null => some none
  | value => some <$> read value

/-- What the member of a name holds, or what holds if there is no such member.  A name that is
repeated has no meaning. -/
def memberOr {α : Type} (read : Json → Option α) (members : List (String × Json)) (name : String)
    (default : α) : Option α :=
  match members.filter fun entry => entry.1 = name with
  | [] => some default
  | [(_, value)] => read value
  | _ => none

end Json

namespace Header

/-- The header that an object spells. -/
def ofJson? : Json → Option Header
  | .object members => do
      let default : Header := {}
      let textOrNull := Json.optional? Json.string?
      return {
        kind := ← Json.memberOr Json.int32? members "k" default.kind
        version := ← Json.memberOr (Json.list? Json.int32?) members "mv" default.version
        data := ← Json.memberOr (Json.list? Json.string?) members "d1" default.data
        strings := ← Json.memberOr (Json.list? Json.string?) members "d2" default.strings
        extraText := ← Json.memberOr textOrNull members "xs" default.extraText
        packageName := ← Json.memberOr textOrNull members "pn" default.packageName
        extraFlags :=
          ← Json.memberOr (Json.optional? Json.int32?) members "xi" default.extraFlags }
  | _ => none

/-- The value under a key as a member, if there is one. -/
def memberToJson {α : Type} (name : String) (toJson : α → Json) (value? : Option α) :
    List (String × Json) :=
  (value?.map fun value => (name, toJson value)).toList

/-- A header as an object. -/
def toJson (header : Header) : Json :=
  .object
    ([ ("k", .int header.kind.toInt)
     , ("mv", .array (header.version.map fun number => .int number.toInt))
     , ("d1", .array (header.data.map .string))
     , ("d2", .array (header.strings.map .string)) ]
      ++ memberToJson "xs" .string header.extraText
      ++ memberToJson "pn" .string header.packageName
      ++ memberToJson "xi" (fun flags => .int flags.toInt) header.extraFlags)

end Header

end KotlinMetadata
