import KotlinMetadata.Names.Predefined
import KotlinMetadata.Names.StringTable

/-!
# Looking names up

A name's number selects a string and the record whose run covers it.  The
record may put another text in the string's place, then cut a piece out of it,
then replace a character, then turn it into a class name, in this order.
Numbers outside the strings never resolve, so runs are cut off at their end.
-/

namespace KotlinMetadata

open Wire

/-- Marks the name of a local class. -/
def localMarker : Char := '.'

/-- Every `source` character replaced by `target`. -/
def replaceChar (source target : Char) (chars : List Char) : List Char :=
  chars.map fun c => if c = source then target else c

/-- The records entry by entry, up to `limit` entries. -/
def expandRecords : Nat → List NameRecord → List NameRecord
  | _, [] => []
  | limit, record :: rest =>
      let count := min record.count limit
      List.replicate count record ++ expandRecords (limit - count) rest

/-- The expansion never has more entries than allowed. -/
theorem length_expandRecords_le (limit : Nat) (records : List NameRecord) :
    (expandRecords limit records).length ≤ limit := by
  induction records generalizing limit with
  | nil => simp [expandRecords]
  | cons record rest ih =>
      have := ih (limit - min record.count limit)
      simp only [expandRecords, List.length_append, List.length_replicate]
      omega

/-- A string table together with its strings. -/
structure Resolver where
  /-- The strings. -/
  strings : Array String
  /-- The record of each entry. -/
  records : Array NameRecord
  /-- The numbers of local classes. -/
  localNames : List Int32

/-- The look-up in a table over its strings. -/
def StringTable.resolver (table : StringTable) (strings : List String) : Resolver where
  strings := strings.toArray
  records := (expandRecords strings.length table.records).toArray
  localNames := table.localNames

namespace NameRecord

/-- The known name that a record stands for, if its position is one. -/
def predefinedName (record : NameRecord) : Option String :=
  record.predefined.bind fun position =>
    if position < 0 then none else predefinedNames[position.toInt.toNat]?

/-- The text that a record starts from, given the string at its entry. -/
def baseText (record : NameRecord) (string : Option String) : Option String :=
  (record.text <|> record.predefinedName) <|> string

/-- The piece that a record cuts out, or the bounds that do not fit. -/
def cut (record : NameRecord) (chars : List Char) : Except (Int32 × Int32) (List Char) :=
  match record.substring with
  | first :: last :: _ =>
      if first < 0 ∨ last < first ∨ chars.length < last.toInt.toNat then .error (first, last)
      else .ok ((chars.take last.toInt.toNat).drop first.toInt.toNat)
  | _ => .ok chars

/-- The character with a given code, if there is one. -/
def character? (code : Int32) : Option Char :=
  let code := code.toUInt32
  if h : code.isValidChar then some ⟨code, h⟩ else none

/-- A record's replacement carried out; codes that are no characters replace nothing. -/
def replaced (record : NameRecord) (chars : List Char) : List Char :=
  match record.replacement with
  | source :: target :: _ =>
      match character? source, character? target with
      | some source, some target => replaceChar source target chars
      | _, _ => chars
  | _ => chars

end NameRecord

/-- An operation carried out. -/
def NameOperation.apply : NameOperation → List Char → List Char
  | none, chars => chars
  | internalToClass, chars => replaceChar '$' '.' chars
  | descriptorToClass, chars =>
      replaceChar '$' '.' (if 2 ≤ chars.length then chars.tail.dropLast else chars)

namespace Resolver

/-- The text with a given number. -/
def text (names : Resolver) (index : Int32) : Except PayloadError String :=
  if index < 0 then .error (.indexOutOfRange index)
  else
    let slot := index.toInt.toNat
    match names.records[slot]? with
    | none =>
        match names.strings[slot]? with
        | some text => .ok text
        | none => .error (.indexOutOfRange index)
    | some record =>
        match record.baseText names.strings[slot]? with
        | none => .error (.indexOutOfRange index)
        | some text =>
            match record.cut text.toList with
            | .error (first, last) => .error (.invalidSubstring index first last)
            | .ok chars =>
                .ok (String.ofList
                  ((record.operation.getD .none).apply (record.replaced chars)))

/-- The class name with a given number; a local class is marked. -/
def className (names : Resolver) (index : Int32) : Except PayloadError String := do
  let text ← names.text index
  return if names.localNames.contains index then s!"{localMarker}{text}" else text

/-- The name with a given number, as its role asks. -/
def lookup (names : Resolver) : NameLookup
  | .className, index => names.className index
  | _, index => names.text index

end Resolver

end KotlinMetadata
