import KotlinMetadata.Tree.Decode
import KotlinMetadata.Tree.Encode

/-!
# The string table of a payload

The table in front of a payload says how the numbered strings that accompany
it are to be understood: which are pieces of others, which stand for names
that every reader knows, and which name local classes.  A record covers a run
of consecutive numbers.
-/

namespace KotlinMetadata

open Wire

/-- What becomes of a string after all else. -/
inductive NameOperation where
  /-- Nothing. -/
  | none
  /-- An internal name becomes a class name: dollar signs turn into dots. -/
  | internalToClass
  /-- A descriptor becomes a class name: its ends are dropped and dollar signs turn into dots. -/
  | descriptorToClass
  deriving DecidableEq, Repr

/-- The number of an operation. -/
def NameOperation.code : NameOperation → Int32
  | none => 0
  | internalToClass => 1
  | descriptorToClass => 2

/-- The operation with a given number; unknown numbers do nothing. -/
def NameOperation.ofCode (code : Int32) : NameOperation :=
  if code = 1 then internalToClass
  else if code = 2 then descriptorToClass
  else none

/-- How a run of entries is to be understood. -/
structure NameRecord where
  /-- How many entries the run has; one if this is absent. -/
  range : Option Int32 := none
  /-- The position of a known name to use. -/
  predefined : Option Int32 := none
  /-- A text to use. -/
  text : Option String := none
  /-- What becomes of the string in the end. -/
  operation : Option NameOperation := none
  /-- The first two bounds cut a piece out of the string. -/
  substring : List Int32 := []
  /-- Every occurrence of the first character is replaced by the second. -/
  replacement : List Int32 := []
  /-- Fields the record does not know. -/
  unknown : List RawField := []
  deriving DecidableEq

/-- The table in front of a payload. -/
structure StringTable where
  /-- The records, run after run. -/
  records : List NameRecord := []
  /-- The numbers whose class names are those of local classes. -/
  localNames : List Int32 := []
  /-- Fields the table does not know. -/
  unknown : List RawField := []
  deriving DecidableEq

namespace Tree

/-- The value that a leaf holds. -/
def get {scalar : Leaf} : Tree (.value (.leaf scalar)) → scalar.Value
  | leaf _ value => value

/-- The value of an optional single-valued field. -/
def getOption {scalar : Leaf} : Tree (.slot .optional (.leaf scalar)) → Option scalar.Value
  | absent => none
  | present value => some value.get

/-- The values of a list of messages or single values. -/
def getList {packed : Bool} {type : ValueType}
    (slot : Tree (.slot (.repeated packed) type)) : List (Tree (.value type)) :=
  slot.values

/-- An optional single-valued field. -/
def leafOption (scalar : Leaf) (value : Option scalar.Value) :
    Tree (.slot .optional (.leaf scalar)) :=
  ofOption (value.map (leaf scalar))

/-- A list of single values. -/
def leafList {packed : Bool} (scalar : Leaf) (values : List scalar.Value) :
    Tree (.slot (.repeated packed) (.leaf scalar)) :=
  ofList (values.map (leaf scalar))

end Tree

namespace NameRecord

/-- The record in a message. -/
def ofMessage : Message .nameRecord → NameRecord
  | .message (.cons range (.cons predefined (.cons operation (.cons substring
      (.cons replacement (.cons text .nil)))))) unknown =>
      { range := range.getOption
        predefined := predefined.getOption
        text := text.getOption
        operation := operation.getOption.map .ofCode
        substring := substring.getList.map Tree.get
        replacement := replacement.getList.map Tree.get
        unknown }

/-- A record as a message. -/
def toMessage (record : NameRecord) : Message .nameRecord :=
  .message
    (.cons (.leafOption .int32 record.range)
      (.cons (.leafOption .int32 record.predefined)
        (.cons (.leafOption .int32 (record.operation.map NameOperation.code))
          (.cons (.leafList .int32 record.substring)
            (.cons (.leafList .int32 record.replacement)
              (.cons (.leafOption .text record.text) .nil))))))
    record.unknown

/-- How many entries a record covers; a negative range covers none. -/
def count (record : NameRecord) : Nat :=
  match record.range with
  | none => 1
  | some range => range.toInt.toNat

end NameRecord

namespace StringTable

/-- The table in a message. -/
def ofMessage : Message .stringTable → StringTable
  | .message (.cons records (.cons localNames .nil)) unknown =>
      { records := records.getList.map .ofMessage
        localNames := localNames.getList.map Tree.get
        unknown }

/-- A table as a message. -/
def toMessage (table : StringTable) : Message .stringTable :=
  .message
    (.cons (.ofList (table.records.map NameRecord.toMessage))
      (.cons (.leafList .int32 table.localNames) .nil))
    table.unknown

/-- The bytes of a table. -/
def encode (table : StringTable) : List UInt8 :=
  table.toMessage.encode fun _ => 0

/-- A table from its bytes.  Tables hold no numbered names. -/
def decode (bytes : List UInt8) : Except PayloadError StringTable :=
  .ofMessage <$> Tree.decode (fun _ index => .error (.indexOutOfRange index)) nestingLimit
    .stringTable bytes

end StringTable

end KotlinMetadata
