import KotlinMetadata.Names.Numbering

/-!
# Payloads

A payload is a string table, preceded by its length, and a message whose names
are numbers in that table.  The strings themselves travel beside it.
-/

namespace KotlinMetadata

open Wire

/-- The bytes of a message behind its string table, and the strings. -/
structure Payload where
  /-- Table and message. -/
  bytes : List UInt8
  /-- The strings that the table is about. -/
  strings : List String
  deriving DecidableEq

namespace Payload

/-- A message with its names numbered by first occurrence. -/
def ofMessage {kind : Kind} (message : Message kind) : Payload :=
  let numbering := Numbering.ofList (message.names.map fun (role, text) => role.tableName text)
  let table := numbering.table.encode
  { bytes :=
      encodeVarint (UInt64.ofNat table.length) ++ table ++ message.encode numbering.index
    strings := numbering.strings }

/-- The string table in front of the message in a payload's bytes. -/
def readTable (bytes : List UInt8) : Except PayloadError StringTable :=
  match Read.slice (.ofBytes bytes) with
  | .error fault _ => .error fault
  | .ok table _ => StringTable.decode table

/-- The message of a payload. -/
def toMessage (kind : Kind) (payload : Payload) : Except PayloadError (Message kind) :=
  match Read.slice (.ofBytes payload.bytes) with
  | .error fault _ => .error fault
  | .ok table cursor => do
      let names := (← StringTable.decode table).resolver payload.strings
      Tree.decode names.lookup nestingLimit kind cursor.rest

end Payload

end KotlinMetadata
