/-!
# What can be wrong with a payload

One constructor per cause.  Offsets count bytes from the start of the
innermost buffer that was being read, and `message` is the only place where a
cause is put into words.
-/

namespace KotlinMetadata

/-- Why a payload, or one name of its string table, cannot be decoded. -/
inductive PayloadError where
  /-- The buffer ends in the middle of a value. -/
  | unexpectedEnd (offset : Nat)
  /-- A varint does not stop within ten bytes. -/
  | overlongVarint (offset : Nat)
  /-- A tag asks for a wire type outside the format. -/
  | unsupportedWireType (code : Nat) (offset : Nat)
  /-- A tag carries the field number zero. -/
  | zeroFieldNumber (offset : Nat)
  /-- A required field never occurred. -/
  | missingField (label : String)
  /-- An inline text is not UTF-8. -/
  | invalidText (offset : Nat)
  /-- A name index lies outside the string table. -/
  | indexOutOfRange (index : Int32)
  /-- A table record cuts a piece out of a text that does not have it. -/
  | invalidSubstring (index first last : Int32)
  /-- A packed string holds a character that is no byte. -/
  | invalidCharacter (code : Nat)
  /-- Messages are nested deeper than `limit` levels. -/
  | nestedTooDeep (limit offset : Nat)
  deriving DecidableEq, Repr

/-- Upper-case hexadecimal digits, at least four of them. -/
def hexCode (n : Nat) : String :=
  let digits := (Nat.toDigits 16 n).map Char.toUpper
  String.ofList (List.replicate (4 - digits.length) '0' ++ digits)

/-- The cause in words. -/
def PayloadError.message : PayloadError → String
  | unexpectedEnd offset => s!"Unexpected end of payload at offset {offset}"
  | overlongVarint offset => s!"Malformed varint at offset {offset}"
  | unsupportedWireType code offset => s!"Unsupported wire type {code} at offset {offset}"
  | zeroFieldNumber offset => s!"Invalid field number 0 at offset {offset}"
  | missingField label => s!"Missing required field {label}"
  | invalidText offset => s!"Invalid UTF-8 string at offset {offset}"
  | indexOutOfRange index => s!"String table index {index.toInt} is out of range"
  | invalidSubstring index first last =>
      s!"Invalid substring {first.toInt}..{last.toInt} for string table entry {index.toInt}"
  | invalidCharacter code => s!"Invalid payload character U+{hexCode code}"
  | nestedTooDeep limit offset => s!"Messages nested deeper than {limit} levels at offset {offset}"

end KotlinMetadata
