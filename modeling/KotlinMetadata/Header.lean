import KotlinMetadata.Annotation

/-!
# The metadata header of a class

A class carries its metadata as the elements of one annotation.  Seven of them
have a meaning here; the others are carried along.  Reading takes the last
value of a repeated element; writing over a list of elements replaces every
occurrence and keeps names, order and everything else.
-/

namespace KotlinMetadata

/-- The descriptor of the metadata annotation. -/
def metadataDescriptor : String := "Lkotlin/Metadata;"

/-- What the metadata of a class describes. -/
inductive HeaderKind where
  /-- A class, interface, object or enum. -/
  | classBody
  /-- The top-level declarations of one file. -/
  | fileFacade
  /-- A class made by the compiler, such as a lambda. -/
  | syntheticClass
  /-- The class in front of the parts of a multi-file class. -/
  | multiFileFacade
  /-- One part of a multi-file class. -/
  | multiFilePart
  /-- Anything else. -/
  | unknown (code : Int32)
  deriving DecidableEq, Repr

/-- The kind with a given number. -/
def HeaderKind.ofCode (code : Int32) : HeaderKind :=
  if code = 1 then classBody
  else if code = 2 then fileFacade
  else if code = 3 then syntheticClass
  else if code = 4 then multiFileFacade
  else if code = 5 then multiFilePart
  else unknown code

/-- The elements of a metadata annotation that have a meaning here. -/
structure Header where
  /-- The number of the kind. -/
  kind : Int32 := 1
  /-- The version of the metadata. -/
  version : List Int32 := []
  /-- The packed payload, or the parts of a multi-file class. -/
  data : List String := []
  /-- The strings of the payload's table. -/
  strings : List String := []
  /-- The facade of a part of a multi-file class. -/
  extraText : Option String := none
  /-- The package, where it is not that of the class file. -/
  packageName : Option String := none
  /-- Flags. -/
  extraFlags : Option Int32 := none
  deriving DecidableEq, Repr

/-- The names of the elements that have a meaning here. -/
inductive HeaderKey where
  | kind
  | version
  | data
  | strings
  | extraText
  | packageName
  | extraFlags
  deriving DecidableEq, Repr

namespace HeaderKey

/-- A key's spelling. -/
def text : HeaderKey → String
  | kind => "k"
  | version => "mv"
  | data => "d1"
  | strings => "d2"
  | extraText => "xs"
  | packageName => "pn"
  | extraFlags => "xi"

/-- All keys. -/
def all : List HeaderKey :=
  [kind, version, data, strings, extraText, packageName, extraFlags]

/-- The key with a given spelling. -/
def ofText? (text : String) : Option HeaderKey :=
  all.find? fun key => key.text = text

/-- What the value of a key has to be. -/
def shape : HeaderKey → String
  | kind | extraFlags => "int"
  | version => "int[]"
  | data | strings => "String[]"
  | extraText | packageName => "String"

@[simp]
theorem ofText?_text (key : HeaderKey) : ofText? key.text = some key := by
  cases key <;> decide

end HeaderKey

/-- An element whose value is not of the shape that its key asks for. -/
structure HeaderError where
  /-- The key of the element. -/
  key : HeaderKey
  deriving DecidableEq, Repr

/-- The fault in words. -/
def HeaderError.message (fault : HeaderError) : String :=
  s!"Invalid value for metadata element `{fault.key.text}`: expected {fault.key.shape}"

namespace Header

/-- The kind of metadata. -/
def headerKind (header : Header) : HeaderKind :=
  .ofCode header.kind

/-- A header with the value of one element put in; nothing if its shape is wrong. -/
def put? (header : Header) (value : ElementValue) : HeaderKey → Option Header
  | .kind => value.int?.map fun kind => { header with kind }
  | .version => value.ints?.map fun version => { header with version }
  | .data => value.strings?.map fun data => { header with data }
  | .strings => value.strings?.map fun strings => { header with strings }
  | .extraText => value.string?.map fun text => { header with extraText := some text }
  | .packageName => value.string?.map fun name => { header with packageName := some name }
  | .extraFlags => value.int?.map fun flags => { header with extraFlags := some flags }

/-- A header with one element put in.  Elements without a meaning leave it as it is. -/
def putElement (header : Header) (element : String × ElementValue) : Except HeaderError Header :=
  match HeaderKey.ofText? element.1 with
  | none => .ok header
  | some key =>
      match header.put? element.2 key with
      | some header => .ok header
      | none => .error ⟨key⟩

/-- The header that elements add up to. -/
def ofElements (elements : Elements) : Except HeaderError Header :=
  elements.foldlM putElement {}

/-- The header of an annotation; none if it has no elements. -/
def ofElements? : Option Elements → Except HeaderError (Option Header)
  | none | some [] => .ok none
  | some elements => some <$> ofElements elements

/-- The value that a header has for a key, if any. -/
def value? (header : Header) : HeaderKey → Option ElementValue
  | .kind => some (.int header.kind)
  | .version => some (.ints header.version)
  | .data => some (.strings header.data)
  | .strings => some (.strings header.strings)
  | .extraText => header.extraText.map .string
  | .packageName => header.packageName.map .string
  | .extraFlags => header.extraFlags.map .int

/-- Elements with the values of a header in place of their own, where it has them. -/
def writeOver (header : Header) (elements : Elements) : Elements :=
  elements.map fun (name, value) =>
    (name, ((HeaderKey.ofText? name).bind header.value?).getD value)

/-- Whether a key is the name of an element. -/
def Occurs (key : HeaderKey) (elements : Elements) : Prop :=
  key.text ∈ elements.map Prod.fst

instance (key : HeaderKey) (elements : Elements) : Decidable (Occurs key elements) :=
  inferInstanceAs (Decidable (key.text ∈ elements.map Prod.fst))

/-- The header that remains of one that is written over the elements of another one.  A key that
occurs has the value that was written, or the value that was held before if the written header has
none.  A key that does not occur has the value of an empty header. -/
def overwritten (written held : Header) (elements : Elements) : Header where
  kind := if Occurs .kind elements then written.kind else 1
  version := if Occurs .version elements then written.version else []
  data := if Occurs .data elements then written.data else []
  strings := if Occurs .strings elements then written.strings else []
  extraText := if Occurs .extraText elements then written.extraText.or held.extraText else none
  packageName :=
    if Occurs .packageName elements then written.packageName.or held.packageName else none
  extraFlags := if Occurs .extraFlags elements then written.extraFlags.or held.extraFlags else none

/-- The elements of a header. -/
def toElements (header : Header) : Elements :=
  HeaderKey.all.filterMap fun key => (header.value? key).map fun value => (key.text, value)

/-- A metadata annotation that holds a header. -/
def toAnnotation (header : Header) : Annotation where
  descriptor := metadataDescriptor
  elements := some header.toElements

end Header

end KotlinMetadata
