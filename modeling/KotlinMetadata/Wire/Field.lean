import KotlinMetadata.Wire.Cursor

/-!
# Fields without their meaning

A buffer is a sequence of fields: a number, a wire type and payload bytes.
This module reads and writes such sequences and says nothing about what the
payloads mean.  Written fields are ordered by number; fields of one number
keep the order in which they were given.
-/

namespace KotlinMetadata.Wire

/-- One field, its payload kept byte for byte.  The payload of a `len` field is without its
length. -/
structure RawField where
  /-- The field number. -/
  number : UInt32
  /-- How the payload is laid out. -/
  wire : WireType
  /-- The payload. -/
  data : List UInt8
  deriving DecidableEq, Repr

/-- A field as it stands in a buffer. -/
structure FieldEntry where
  /-- Where the payload begins. -/
  offset : Nat
  /-- The field. -/
  field : RawField
  deriving DecidableEq, Repr

/-- The word of a tag. -/
def tagWord (number : UInt32) (wire : WireType) : UInt64 :=
  UInt64.ofNat (8 * number.toNat + wire.code)

/-- A field's bytes: tag, length if the wire type has one, payload. -/
def RawField.encode (field : RawField) : List UInt8 :=
  encodeVarint (tagWord field.number field.wire) ++
    (if field.wire = .len then encodeVarint (UInt64.ofNat field.data.length) else []) ++
    field.data

/-- Fields by ascending number; fields of one number keep their order. -/
def sortFields (fields : List RawField) : List RawField :=
  fields.mergeSort fun a b => decide (a.number ≤ b.number)

/-- The bytes of a message with the given fields. -/
def encodeFields (fields : List RawField) : List UInt8 :=
  (sortFields fields).flatMap RawField.encode

namespace Read

/-- A tag and the value behind it, read as its wire type asks. -/
def tagged {α : Type} (value : WireType → Read α) : Read (UInt32 × WireType × α) := do
  let (number, wire) ← tag
  return (number, wire, ← value wire)

/-- A field with a given tag. -/
def rawField (number : UInt32) (wire : WireType) : Read RawField := do
  return { number, wire, data := ← payload wire }

/-- A tag and its payload.  A tag that `admits` turns down is a message past the nesting limit;
its payload is not looked at. -/
def fieldEntry (admits : UInt32 → WireType → Bool) : Read FieldEntry := do
  let (number, wire) ← tag
  let offset := (← get).position
  if admits number wire then
    return { offset, field := ← rawField number wire }
  else
    throw (.nestedTooDeep nestingLimit offset)

end Read

/-- The fields ahead of a cursor, given at least as much fuel as there are bytes. -/
def fieldEntriesFrom (admits : UInt32 → WireType → Bool) :
    Nat → Cursor → List (Except PayloadError FieldEntry)
  | 0, _ => []
  | fuel + 1, cursor =>
      if cursor.rest.isEmpty then []
      else match Read.fieldEntry admits cursor with
        | .ok entry next => .ok entry :: fieldEntriesFrom admits fuel next
        | .error fault _ => [.error fault]

/-- The fields of a buffer in reading order, ended by the fault that stopped the reading if one
did. -/
def fieldEntries (admits : UInt32 → WireType → Bool) (bytes : List UInt8) :
    List (Except PayloadError FieldEntry) :=
  fieldEntriesFrom admits bytes.length (.ofBytes bytes)

/-- The fields of a buffer in reading order, or the fault that stopped the reading. -/
def rawFields (bytes : List UInt8) : Except PayloadError (List RawField) :=
  (fieldEntries (fun _ _ => true) bytes).mapM fun entry => entry.bind fun entry => .ok entry.field

namespace RawField

/-- A 32-bit integer; a negative one takes ten bytes. -/
def int32 (number : UInt32) (value : Int32) : RawField :=
  { number, wire := .varint, data := encodeVarint (wordOfInt32 value) }

/-- A truth value. -/
def bool (number : UInt32) (value : Bool) : RawField :=
  { number, wire := .varint, data := encodeVarint (wordOfBool value) }

/-- A folded 64-bit integer. -/
def sint64 (number : UInt32) (value : Int64) : RawField :=
  { number, wire := .varint, data := encodeVarint (zigzag value) }

/-- A 32-bit float, given by its bits. -/
def float (number : UInt32) (bits : UInt32) : RawField :=
  { number, wire := .fixed32, data := littleEndian 4 bits.toNat }

/-- A 64-bit float, given by its bits. -/
def double (number : UInt32) (bits : UInt64) : RawField :=
  { number, wire := .fixed64, data := littleEndian 8 bits.toNat }

/-- Length-delimited bytes. -/
def bytes (number : UInt32) (data : List UInt8) : RawField :=
  { number, wire := .len, data }

/-- A list of integers in one field; no field for no integers. -/
def packedInt32s (number : UInt32) (values : List Int32) : List RawField :=
  if values.isEmpty then []
  else [bytes number (values.flatMap (encodeVarint ∘ wordOfInt32))]

/-- A list of integers, one field each. -/
def int32s (number : UInt32) (values : List Int32) : List RawField :=
  values.map (int32 number)

end RawField

end KotlinMetadata.Wire
