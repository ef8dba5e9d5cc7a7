import KotlinMetadata.Header

/-!
# Advisory findings

Two things about a class are worth reporting and never stop its processing:
metadata of another release than the one supported, and a payload whose
strings change in number when it is written again.
-/

namespace KotlinMetadata

/-- A version of the metadata format. -/
structure MetadataVersion where
  major : Int32
  minor : Int32
  /-- Never compared. -/
  patch : Int32 := 0
  deriving DecidableEq, Repr

namespace MetadataVersion

/-- The version that is read and written here. -/
def current : MetadataVersion :=
  { major := 2, minor := 1 }

/-- The version that a header's numbers spell; it takes two of them at least. -/
def ofNumbers? : List Int32 → Option MetadataVersion
  | major :: minor :: rest => some { major, minor, patch := rest.headD 0 }
  | _ => none

/-- Whether major and minor agree. -/
def sameRelease (a b : MetadataVersion) : Bool :=
  a.major = b.major && a.minor = b.minor

/-- The numbers joined by dots. -/
def text (version : MetadataVersion) : String :=
  s!"{version.major.toInt}.{version.minor.toInt}.{version.patch.toInt}"

end MetadataVersion

/-- A finding about the metadata of a class. -/
inductive Diagnostic where
  /-- The metadata is of another release. -/
  | versionMismatch (className : String) (found : List Int32) (supported : MetadataVersion)
  /-- The number of strings changed. -/
  | sizeDrift (className : String) (before after : Nat)
  deriving DecidableEq, Repr

namespace Diagnostic

/-- The class that a finding is about. -/
def className : Diagnostic → String
  | versionMismatch className _ _ => className
  | sizeDrift className _ _ => className

/-- A finding in words. -/
def message : Diagnostic → String
  | versionMismatch className found supported =>
      let numbers := String.intercalate "." (found.map fun n => toString n.toInt)
      s!"Kotlin metadata of {className} has version {numbers} but {supported.text} is " ++
        "supported; remapping may lose data"
  | sizeDrift className before after =>
      s!"Kotlin metadata of {className} changed size while remapping " ++
        s!"({before} -> {after} strings)"

/-- What there is to report about a header's version. -/
def ofVersion? (className : String) (header : Header) (supported : MetadataVersion) :
    Option Diagnostic :=
  match MetadataVersion.ofNumbers? header.version with
  | some found =>
      if found.sameRelease supported then none
      else some (versionMismatch className header.version supported)
  | none => some (versionMismatch className header.version supported)

/-- What there is to report about the strings of a header and of its new version. -/
def ofSizes? (className : String) (before after : Header) : Option Diagnostic :=
  if before.strings.length = after.strings.length then none
  else some (sizeDrift className before.strings.length after.strings.length)

end Diagnostic

end KotlinMetadata
