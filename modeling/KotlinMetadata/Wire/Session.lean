import KotlinMetadata.Wire.Field

/-!
# Reading step by step

A reading session is a stack of cursors, each inside the one below it.  Steps
act on the cursor on top; one that fails leaves the session as far as it got.
-/

namespace KotlinMetadata.Wire

/-- A step of a reading session. -/
inductive ReadStep where
  | varint
  | tag
  | int32
  | bool
  | sint64
  | float
  | double
  | slice
  | text
  /-- The integers of a list field with a given wire type. -/
  | int32s (wire : WireType)
  /-- The payload of a field with a given tag. -/
  | skip (number : UInt32) (wire : WireType)
  /-- A tag and its payload. -/
  | field
  /-- What is left, without reading it. -/
  | rest
  /-- Enters the message ahead. -/
  | enter
  /-- Goes back to the enclosing buffer. -/
  | leave
  deriving DecidableEq, Repr

/-- What a step finds. -/
inductive ReadResult where
  | word (value : UInt64)
  | tag (number : UInt32) (wire : WireType)
  | int32 (value : Int32)
  | bool (value : Bool)
  | sint64 (value : Int64)
  | float (bits : UInt32)
  | double (bits : UInt64)
  | bytes (data : List UInt8)
  | text (value : String)
  | int32s (values : List Int32)
  | field (field : RawField)
  deriving DecidableEq, Repr

/-- A stack of cursors, never empty. -/
structure ReadSession where
  /-- The cursor that steps act on. -/
  top : Cursor
  /-- The cursors it lies in, the innermost first. -/
  below : List Cursor := []

namespace ReadSession

/-- A session at the start of a buffer. -/
def ofBytes (bytes : List UInt8) : ReadSession :=
  { top := .ofBytes bytes }

/-- The cursors of a session, the outermost one first. -/
def cursors (session : ReadSession) : List Cursor :=
  session.below.reverse ++ [session.top]

/-- A reading action on the top cursor. -/
def act {α : Type} (session : ReadSession) (action : Read α) (result : α → ReadResult) :
    Except PayloadError ReadResult × ReadSession :=
  match action session.top with
  | .ok value top => (.ok (result value), { session with top })
  | .error fault top => (.error fault, { session with top })

/-- A session inside the message ahead. -/
def enter (session : ReadSession) : Except PayloadError ReadResult × ReadSession :=
  match Read.nested session.top with
  | .ok inner outer => (.ok (.bool true), { top := inner, below := outer :: session.below })
  | .error fault top => (.error fault, { session with top })

/-- A session back in the enclosing buffer, if there is one. -/
def leave (session : ReadSession) : ReadResult × ReadSession :=
  match session.below with
  | [] => (.bool false, session)
  | outer :: below => (.bool true, { top := outer, below })

/-- One step. -/
def step (session : ReadSession) : ReadStep → Except PayloadError ReadResult × ReadSession
  | .varint => session.act Read.varint .word
  | .tag => session.act Read.tag fun (number, wire) => .tag number wire
  | .int32 => session.act Read.int32 .int32
  | .bool => session.act Read.bool .bool
  | .sint64 => session.act Read.sint64 .sint64
  | .float => session.act Read.float .float
  | .double => session.act Read.double .double
  | .slice => session.act Read.slice .bytes
  | .text => session.act Read.text .text
  | .int32s wire => session.act (Read.int32s wire) .int32s
  | .skip number wire => session.act (Read.rawField number wire) .field
  | .field => session.act (Read.fieldEntry fun _ _ => true) fun entry => .field entry.field
  | .rest => (.ok (.bytes session.top.rest), session)
  | .enter => session.enter
  | .leave => let (result, session) := session.leave; (.ok result, session)

/-- What each of several steps finds, with the session after it. -/
def run (session : ReadSession) :
    List ReadStep → List (Except PayloadError ReadResult × ReadSession)
  | [] => []
  | step :: rest =>
      let after := session.step step
      after :: after.2.run rest

/-- A session after several steps. -/
def after (session : ReadSession) (steps : List ReadStep) : ReadSession :=
  ((session.run steps).getLast?.map Prod.snd).getD session

end ReadSession

end KotlinMetadata.Wire
