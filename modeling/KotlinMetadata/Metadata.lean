import KotlinMetadata.Header
import KotlinMetadata.Packing
import KotlinMetadata.Payload
import KotlinMetadata.Renaming.ClassName

/-!
# The metadata of a class

A header's kind decides what its payload is.  Writing puts the payload, and
nothing else that the header owns, into a header given beforehand.  Renaming
reaches every class that the metadata refers to; multi-file facades and
unknown kinds have no tree and stay as they are.
-/

namespace KotlinMetadata

/-- Decoded metadata. -/
inductive Metadata where
  | classBody (body : Message .classBody)
  | fileFacade (package : Message .package)
  /-- A lambda, or another class made by the compiler, which has no tree. -/
  | syntheticClass (lambda : Option (Message .function))
  | multiFileFacade (parts : List String)
  | multiFilePart (package : Message .package) (facade : String)
  | unknown (code : Int32)

namespace Metadata

/-- The string table in front of the message in a header's payload. -/
def readTable (header : Header) : Except PayloadError StringTable :=
  Packing.unpack header.data >>= Payload.readTable

/-- The message in a header's payload. -/
def readPayload (kind : Kind) (header : Header) : Except PayloadError (Message kind) := do
  let bytes ← Packing.unpack header.data
  Payload.toMessage kind { bytes, strings := header.strings }

/-- The metadata in a header. -/
def read (header : Header) : Except PayloadError Metadata :=
  match header.headerKind with
  | .classBody => .classBody <$> readPayload .classBody header
  | .fileFacade => .fileFacade <$> readPayload .package header
  | .syntheticClass =>
      if header.data.isEmpty then .ok (.syntheticClass none)
      else (.syntheticClass ∘ some) <$> readPayload .function header
  | .multiFileFacade => .ok (.multiFileFacade header.data)
  | .multiFilePart => do
      let package ← readPayload .package header
      match header.extraText with
      | some facade => return .multiFilePart package facade
      | none => throw (.missingField "xs")
  | .unknown code => .ok (.unknown code)

/-- A header with a message as its payload. -/
def writePayload {kind : Kind} (message : Message kind) (header : Header) : Header :=
  let payload := Payload.ofMessage message
  { header with data := Packing.pack payload.bytes, strings := payload.strings }

/-- A header with the metadata written into it. -/
def write (header : Header) : Metadata → Header
  | classBody body => writePayload body header
  | fileFacade package => writePayload package header
  | syntheticClass (some lambda) => writePayload lambda header
  | multiFilePart package facade => { writePayload package header with extraText := some facade }
  | syntheticClass none | multiFileFacade _ | unknown _ => header

/-- Whether there is a tree that can be renamed. -/
def hasTree : Metadata → Bool
  | classBody _ | fileFacade _ | syntheticClass (some _) | multiFilePart _ _ => true
  | syntheticClass none | multiFileFacade _ | unknown _ => false

/-- The name of the class that a class body describes. -/
def className : Message .classBody → String
  | .message (.cons _ (.cons _ (.cons (.exactly name) _))) _ => name.get

/-- A class body with its names renamed.  The names of nested classes are understood in the class
as it was called before. -/
def renameClass (rename : Renaming) (body : Message .classBody) : Message .classBody :=
  body.mapNames (rename.apply (className body))

/-- Declarations with their names renamed. -/
def renameMembers {kind : Kind} (rename : Renaming) (message : Message kind) : Message kind :=
  message.mapNames (rename.apply "")

/-- Metadata with its names renamed. -/
def map (rename : Renaming) : Metadata → Metadata
  | classBody body => classBody (renameClass rename body)
  | fileFacade package => fileFacade (renameMembers rename package)
  | syntheticClass lambda => syntheticClass (lambda.map (renameMembers rename))
  | multiFilePart package facade =>
      multiFilePart (renameMembers rename package) (rename.className facade)
  | multiFileFacade parts => multiFileFacade parts
  | unknown code => unknown code

/-- Equality of metadata; floats are compared by their bits. -/
def beq : Metadata → Metadata → Bool
  | classBody a, classBody b => a == b
  | fileFacade a, fileFacade b => a == b
  | syntheticClass none, syntheticClass none => true
  | syntheticClass (some a), syntheticClass (some b) => a == b
  | multiFileFacade a, multiFileFacade b => a == b
  | multiFilePart a facade, multiFilePart b facade' => a == b && facade == facade'
  | unknown a, unknown b => a == b
  | _, _ => false

instance : BEq Metadata := ⟨beq⟩

end Metadata

end KotlinMetadata
