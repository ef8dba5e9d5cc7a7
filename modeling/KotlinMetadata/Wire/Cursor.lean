import KotlinMetadata.PayloadError
import KotlinMetadata.Wire.Varint
import KotlinMetadata.Wire.Scalar

/-!
# Reading a buffer

A cursor is what is left of a buffer together with how much of it is gone and
how many messages enclose it.  Reading actions move the cursor forward only,
and a failed action leaves the cursor where it stopped: a length prefix in
front of missing bytes stays read.
-/

namespace KotlinMetadata.Wire

/-- Messages may be nested this deep below the outermost one. -/
def nestingLimit : Nat := 100

/-- A position in a buffer. -/
structure Cursor where
  /-- The bytes not read yet. -/
  rest : List UInt8
  /-- How many bytes of the buffer have been read. -/
  position : Nat := 0
  /-- How many messages enclose the buffer. -/
  depth : Nat := 0
  deriving DecidableEq

/-- The start of a buffer that no message encloses. -/
def Cursor.ofBytes (bytes : List UInt8) : Cursor :=
  { rest := bytes }

/-- How many bytes are left. -/
def Cursor.remaining (cursor : Cursor) : Nat :=
  cursor.rest.length

/-- Whether any byte is left. -/
def Cursor.hasMore (cursor : Cursor) : Bool :=
  !cursor.rest.isEmpty

/-- A reading action.  A failure keeps the cursor it was reached with. -/
abbrev Read := EStateM PayloadError Cursor

/-- How the payload of a field is laid out. -/
inductive WireType where
  /-- A base-128 number. -/
  | varint
  /-- Eight bytes. -/
  | fixed64
  /-- A length and that many bytes. -/
  | len
  /-- Four bytes. -/
  | fixed32
  deriving DecidableEq, Repr

/-- The number of a wire type in a tag. -/
def WireType.code : WireType → Nat
  | varint => 0
  | fixed64 => 1
  | len => 2
  | fixed32 => 5

/-- The wire type with a given number. -/
def WireType.ofCode? : Nat → Option WireType
  | 0 => some varint
  | 1 => some fixed64
  | 2 => some len
  | 5 => some fixed32
  | _ => none

@[simp]
theorem WireType.ofCode?_code (wire : WireType) : ofCode? wire.code = some wire := by
  cases wire <;> rfl

namespace Read

/-- The next byte. -/
def byte : Read UInt8 := fun cursor =>
  match cursor.rest with
  | [] => .error (.unexpectedEnd cursor.position) cursor
  | b :: rest => .ok b { cursor with rest, position := cursor.position + 1 }

/-- The next `count` bytes; takes none if there are fewer. -/
def take (count : Nat) : Read (List UInt8) := fun cursor =>
  let bytes := cursor.rest.take count
  if bytes.length = count then
    .ok bytes { cursor with rest := cursor.rest.drop count, position := cursor.position + count }
  else .error (.unexpectedEnd cursor.position) cursor

/-- The groups of a varint that began at `start`, of which at most `k` are still allowed. -/
def groupsFrom (start : Nat) : Nat → Read (List UInt8)
  | 0 => throw (.overlongVarint start)
  | k + 1 => do
      let b ← byte
      if b < 128 then return [b]
      let rest ← groupsFrom start k
      return b :: rest

/-- The bytes of a varint, as they stand. -/
def groups : Read (List UInt8) := do
  groupsFrom (← get).position 10

/-- A varint's word. -/
def varint : Read UInt64 := do
  return decodeVarint (← groups)

/-- A tag: the field number, cut to 32 bits, and the wire type. -/
def tag : Read (UInt32 × WireType) := do
  let start := (← get).position
  let key ← varint
  let number := UInt32.ofNat (key.toNat / 8)
  if number = 0 then throw (.zeroFieldNumber start)
  match WireType.ofCode? (key.toNat % 8) with
  | some wire => return (number, wire)
  | none => throw (.unsupportedWireType (key.toNat % 8) start)

/-- A length and that many bytes. -/
def slice : Read (List UInt8) := do
  take (← varint).toNat

/-- The payload of a field, without its length if it has one. -/
def payload : WireType → Read (List UInt8)
  | .varint => groups
  | .fixed64 => take 8
  | .len => slice
  | .fixed32 => take 4

/-- A signed 32-bit integer. -/
def int32 : Read Int32 := do
  return int32OfWord (← varint)

/-- A truth value. -/
def bool : Read Bool := do
  return boolOfWord (← varint)

/-- A folded signed 64-bit integer. -/
def sint64 : Read Int64 := do
  return unzigzag (← varint)

/-- The bits of a 32-bit float. -/
def float : Read UInt32 := do
  return UInt32.ofNat (ofLittleEndian (← take 4))

/-- The bits of a 64-bit float. -/
def double : Read UInt64 := do
  return UInt64.ofNat (ofLittleEndian (← take 8))

/-- A length and that many bytes of UTF-8. -/
def text : Read String := do
  let start := (← get).position
  match String.fromUTF8? (← slice).toByteArray with
  | some text => return text
  | none => throw (.invalidText start)

/-- A cursor over a length-prefixed message inside this one. -/
def nested : Read Cursor := do
  let cursor ← get
  if nestingLimit ≤ cursor.depth then throw (.nestedTooDeep nestingLimit cursor.position)
  return { rest := ← slice, depth := cursor.depth + 1 }

end Read

/-- The varints that fill a buffer, each as its bytes, given at least as much fuel as bytes. -/
def varintsFrom : Nat → Cursor → Except PayloadError (List (List UInt8))
  | 0, _ => .ok []
  | fuel + 1, cursor =>
      if cursor.rest.isEmpty then .ok []
      else match Read.groups cursor with
        | .ok groups next => (groups :: ·) <$> varintsFrom fuel next
        | .error fault _ => .error fault

/-- The varints that fill a buffer, each as its bytes.  Offsets count from the buffer's start. -/
def varints (bytes : List UInt8) : Except PayloadError (List (List UInt8)) :=
  varintsFrom bytes.length (.ofBytes bytes)

/-- The integers of a list field: one varint, or a length and any number of varints. -/
def Read.int32s (wire : WireType) : Read (List Int32) := do
  if wire = .len then
    match varints (← slice) with
    | .ok groups => return groups.map (int32OfWord ∘ decodeVarint)
    | .error fault => throw fault
  else
    return [← int32]

end KotlinMetadata.Wire
