import KotlinMetadata.Settings
import KotlinMetadata.Toml.Document

/-!
# Settings in a document

A document gives the settings that differ from the defaults.  Keys without a
meaning here are passed over, whatever their values.
-/

namespace KotlinMetadata

/-- Why a document gives no settings. -/
inductive SettingsError where
  /-- It is no document, or a setting has a value of the wrong type. -/
  | malformed
  /-- The annotation has no descriptor of a class. -/
  | notADescriptor (text : String)
  /-- A namespace without a name. -/
  | noNamespace
  deriving DecidableEq, Repr

/-- The fault in words. -/
def SettingsError.message : SettingsError → String
  | malformed => "Failed to parse config"
  | notADescriptor text =>
      s!"Invalid config: Invalid annotation descriptor: {text}. Must look like Lpkg/Name;"
  | noNamespace => "Invalid config: Mapping namespaces cannot be empty"

namespace Toml

/-- The text of a string. -/
def string? : Toml → Option String
  | string value => some value
  | _ => none

/-- The truth value. -/
def boolean? : Toml → Option Bool
  | boolean value => some value
  | _ => none

/-- A whole number of 32 bits. -/
def int32? : Toml → Option Int32
  | integer value =>
      if Int32.minValue.toInt ≤ value ∧ value ≤ Int32.maxValue.toInt then some (.ofInt value)
      else none
  | _ => none

/-- What the member of a name holds, or what holds if there is no such member. -/
def memberOr {α : Type} (read : Toml → Option α) (members : Members) (name : String)
    (default : α) : Option α :=
  match members.lookup name with
  | none => some default
  | some value => read value

end Toml

/-- A version as a table with its numbers, or as a list of them. -/
def MetadataVersion.ofToml? : Toml → Option MetadataVersion
  | .table _ members => do
      return {
        major := ← (← members.lookup "major").int32?
        minor := ← (← members.lookup "minor").int32?
        patch := ← Toml.memberOr Toml.int32? members "patch" 0 }
  | .array values => do MetadataVersion.ofNumbers? (← (values.take 3).mapM Toml.int32?)
  | _ => none

namespace Settings

/-- The settings that the members of a document give. -/
def ofMembers? (members : Toml.Members) : Option Settings := do
  let default : Settings := {}
  return {
    descriptor := ← Toml.memberOr Toml.string? members "annotation-descriptor" default.descriptor
    version :=
      ← Toml.memberOr MetadataVersion.ofToml? members "metadata-version" default.version
    reportSizeDrift :=
      ← Toml.memberOr Toml.boolean? members "report-size-drift" default.reportSizeDrift
    sourceNamespace :=
      ← Toml.memberOr Toml.string? members "source-namespace" default.sourceNamespace
    targetNamespace :=
      ← Toml.memberOr Toml.string? members "target-namespace" default.targetNamespace }

/-- Whether a text looks like the descriptor of a class. -/
def isClassDescriptor (text : String) : Bool :=
  2 < text.utf8ByteSize && text.toList.head? = some 'L' && text.toList.getLast? = some ';'

/-- The settings, if they can be used. -/
def check (settings : Settings) : Except SettingsError Settings :=
  if !isClassDescriptor settings.descriptor then .error (.notADescriptor settings.descriptor)
  else if settings.sourceNamespace.isEmpty || settings.targetNamespace.isEmpty then
    .error .noNamespace
  else .ok settings

/-- The settings in a document. -/
def read (text : String) : Except SettingsError Settings :=
  match (Toml.read text).bind ofMembers? with
  | none => .error .malformed
  | some settings => settings.check

end Settings

end KotlinMetadata
