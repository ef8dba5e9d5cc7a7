import KotlinMetadata.Tree

/-!
# Reading a tree

Each field of a buffer is handed to the field of the schema that accepts its
number and wire type; one that none accepts is kept as it is.  A single value
that occurs again replaces the earlier one, lists grow in reading order, and a
required value that never occurs is a fault of its own.  Faults show in
reading order, so one in an early field hides everything behind it.
-/

namespace KotlinMetadata

open Wire

/-- How the names of a payload are looked up. -/
abbrev NameLookup := Role → Int32 → Except PayloadError String

/-- Where a field of a buffer belongs in a sequence of schema fields, with the values it
carries. -/
inductive Finding : List Field → Type where
  /-- It belongs to the first of them. -/
  | here {field : Field} {fields : List Field} (values : List (Tree (.value field.type))) :
      Finding (field :: fields)
  /-- It does not belong to the first of them. -/
  | further {field : Field} {fields : List Field} (finding : Finding fields) :
      Finding (field :: fields)
  /-- It belongs to none of them. -/
  | unknown (raw : RawField) : Finding []

namespace Finding

/-- The values found for the first field. -/
def values {field : Field} {fields : List Field} :
    Finding (field :: fields) → List (Tree (.value field.type))
  | here values => values
  | further _ => []

/-- What was found for the fields behind the first. -/
def behind {field : Field} {fields : List Field} :
    Finding (field :: fields) → Option (Finding fields)
  | here _ => none
  | further finding => some finding

/-- The field itself, where no schema field is left. -/
def raw : Finding [] → RawField
  | unknown raw => raw

end Finding

namespace Tree

/-- A single value from its payload, which begins at `offset`. -/
def decodeLeaf (lookup : NameLookup) (offset : Nat) (data : List UInt8) :
    (leaf : Leaf) → Except PayloadError leaf.Value
  | .int32 => .ok (int32OfWord (decodeVarint data))
  | .bool => .ok (boolOfWord (decodeVarint data))
  | .sint64 => .ok (unzigzag (decodeVarint data))
  | .float => .ok (UInt32.ofNat (ofLittleEndian data))
  | .double => .ok (UInt64.ofNat (ofLittleEndian data))
  | .text =>
      match String.fromUTF8? data.toByteArray with
      | some text => .ok text
      | none => .error (.invalidText offset)
  | .name role => lookup role (int32OfWord (decodeVarint data))

section

variable (lookup : NameLookup)
  (inner : (kind : Kind) → List UInt8 → Except PayloadError (Message kind))

/-- A value from its payload. -/
def decodeValue (offset : Nat) (data : List UInt8) :
    (type : ValueType) → Except PayloadError (Tree (.value type))
  | .leaf scalar => leaf scalar <$> decodeLeaf lookup offset data scalar
  | .message kind => inner kind data

/-- The values that a field of a buffer carries for a field of the schema. -/
def decodeEntry (field : Field) (entry : FieldEntry) :
    Except PayloadError (List (Tree (.value field.type))) := do
  let payloads ←
    if field.packable && entry.field.wire = .len then varints entry.field.data
    else .ok [entry.field.data]
  payloads.mapM fun data => decodeValue lookup inner entry.offset data field.type

/-- The place of a field of a buffer among the fields of a schema. -/
def findEntry (entry : FieldEntry) : (fields : List Field) → Except PayloadError (Finding fields)
  | [] => .ok (.unknown entry.field)
  | field :: fields =>
      if field.accepts entry.field.number entry.field.wire then
        .here <$> decodeEntry lookup inner field entry
      else .further <$> findEntry entry fields

end

/-- A field with as many of the values as its arity allows, the last ones if there are more. -/
def fill {type : ValueType} : (arity : Arity) → List (Tree (.value type)) →
    Except PayloadError (Tree (.slot arity type))
  | .required label, values =>
      match values.getLast? with
      | some value => .ok (exactly value)
      | none => .error (.missingField label)
  | .optional, values => .ok (ofOption values.getLast?)
  | .repeated _, values => .ok (ofList values)

/-- The fields of a message from everything found in its buffer, and what no field accepted. -/
def gather : (fields : List Field) → List (Finding fields) →
    Except PayloadError (Tree (.fields fields) × List RawField)
  | [], findings => .ok (nil, findings.map Finding.raw)
  | field :: fields, findings => do
      let slot ← fill field.arity (findings.flatMap Finding.values)
      let (rest, unknown) ← gather fields (findings.filterMap Finding.behind)
      return (cons slot rest, unknown)

/-- A message from its bytes.  `admits` tells which messages inside it may be entered, and
`inner` reads them. -/
def decodeMessage (lookup : NameLookup) (admits : UInt32 → WireType → Bool)
    (inner : (kind : Kind) → List UInt8 → Except PayloadError (Message kind))
    (kind : Kind) (bytes : List UInt8) : Except PayloadError (Message kind) := do
  let findings ← (fieldEntries admits bytes).mapM fun entry =>
    entry.bind fun entry => findEntry lookup inner entry kind.fields
  let (fields, unknown) ← gather kind.fields findings
  return message fields unknown

/-- A message from its bytes, with at most `levels` levels of messages inside it. -/
def decode (lookup : NameLookup) :
    Nat → (kind : Kind) → List UInt8 → Except PayloadError (Message kind)
  | 0, kind, bytes =>
      decodeMessage lookup (fun number wire => !kind.nests number wire)
        (fun _ _ => .error (.nestedTooDeep nestingLimit 0)) kind bytes
  | levels + 1, kind, bytes =>
      decodeMessage lookup (fun _ _ => true) (decode lookup levels) kind bytes

end Tree

end KotlinMetadata
