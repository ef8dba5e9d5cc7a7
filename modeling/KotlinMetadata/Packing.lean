import KotlinMetadata.PayloadError

/-!
# Bytes in strings

Annotations carry strings only, so a payload is packed into strings, one
character a byte.  Packed strings begin with U+0000 and are cut so that each
fits the 65535 bytes that a class file allows a string, where U+0000 and the
characters from U+0080 on take two bytes.  Strings that do not begin with
U+0000 are in an older form: groups of seven bits, lowest bits first, shifted
by one, perhaps behind U+FFFF.  Their bytes are the bits of all groups, eight at
a time; a cursor that walks over the groups joins each byte from two neighbours.
-/

namespace KotlinMetadata.Packing

/-- Opens packed strings. -/
def byteMark : Char := '\x00'

/-- May open strings in the older form. -/
def groupMark : Char := '\uffff'

/-- A string is closed as soon as it has this many bytes; one more character still fits. -/
def chunkLimit : Nat := 65534

/-- What a byte's character takes up in a class file. -/
def byteCost (byte : UInt8) : Nat :=
  if 1 ≤ byte ∧ byte ≤ 127 then 1 else 2

/-- A byte as a character. -/
def charOfByte (byte : UInt8) : Char :=
  Char.ofNat byte.toNat

/-- Packs bytes behind an open string of known cost.  The open string and the closed ones before
it are given in reverse. -/
def packFrom (closed : List String) (chunk : List Char) (cost : Nat) :
    List UInt8 → List String
  | [] =>
      if chunk.isEmpty then closed.reverse
      else (String.ofList chunk.reverse :: closed).reverse
  | byte :: rest =>
      let chunk := charOfByte byte :: chunk
      let cost := cost + byteCost byte
      if chunkLimit ≤ cost then packFrom (String.ofList chunk.reverse :: closed) [] 0 rest
      else packFrom closed chunk cost rest

/-- Bytes as strings. -/
def pack (bytes : List UInt8) : List String :=
  packFrom [] [byteMark] 2 bytes

/-- A character as a byte. -/
def byteOfChar (c : Char) : Except PayloadError UInt8 :=
  if c.toNat < 256 then .ok (UInt8.ofNat c.toNat) else .error (.invalidCharacter c.toNat)

/-- The seven bits that a character stands for in the older form. -/
def groupOfChar (c : Char) : Nat :=
  (c.toNat + 127) % 128

/-- The seven bits of a group, lowest first. -/
def groupBits (group : Nat) : List Bool :=
  (List.range 7).map group.testBit

/-- The byte that eight bits spell, lowest first. -/
def byteOfBits (bits : List Bool) : UInt8 :=
  UInt8.ofNat (bits.foldr (fun bit n => (if bit then 1 else 0) + 2 * n) 0)

/-- Bits as bytes, eight at a time; bits left over are dropped. -/
def bytesOfBits : List Bool → List UInt8
  | b0 :: b1 :: b2 :: b3 :: b4 :: b5 :: b6 :: b7 :: rest =>
      byteOfBits [b0, b1, b2, b3, b4, b5, b6, b7] :: bytesOfBits rest
  | _ => []

/-- The bytes of strings in the older form. -/
def unpackGroups (chars : List Char) : List UInt8 :=
  bytesOfBits (chars.flatMap fun c => groupBits (groupOfChar c))

/-- What is left of a group of which some bits are used, and the lowest bits of the next group
behind it. -/
def joinGroups (used low high : Nat) : Nat :=
  (low >>> used) + (high &&& (1 <<< (used + 1) - 1)) <<< (7 - used)

/-- A place in groups: the place of a group, and how many of its bits are used. -/
structure GroupCursor where
  position : Nat
  used : Nat

namespace GroupCursor

/-- In front of all groups. -/
def start : GroupCursor :=
  ⟨0, 0⟩

/-- Eight bits further on.  These are what is left of the group and the beginning of the next one,
or all of it. -/
def next (cursor : GroupCursor) : GroupCursor :=
  if cursor.used = 6 then ⟨cursor.position + 2, 0⟩ else ⟨cursor.position + 1, cursor.used + 1⟩

/-- As many bytes as asked for, each joined from two neighbouring groups.  Nothing is read where a
group is missing. -/
def readBytes (groups : List Nat) (cursor : GroupCursor) : Nat → Option (List UInt8)
  | 0 => some []
  | count + 1 => do
      let low ← groups[cursor.position]?
      let high ← groups[cursor.position + 1]?
      let rest ← readBytes groups cursor.next count
      return UInt8.ofNat (joinGroups cursor.used low high) :: rest

end GroupCursor

/-- Strings as bytes.  The first character of the first string tells the form; it is a mark only
if it is one of the two. -/
def unpack (strings : List String) : Except PayloadError (List UInt8) :=
  let chars := strings.flatMap String.toList
  match strings.head?.bind fun first => first.toList.head? with
  | none => .ok (unpackGroups chars)
  | some first =>
      if first = byteMark then chars.tail.mapM byteOfChar
      else if first = groupMark then .ok (unpackGroups chars.tail)
      else .ok (unpackGroups chars)

end KotlinMetadata.Packing
