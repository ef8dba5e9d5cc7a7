import KotlinMetadata.Version

/-!
# Settings

What can be set about renaming metadata, with the values that hold otherwise.
-/

namespace KotlinMetadata

/-- The settings of a renaming. -/
structure Settings where
  /-- The descriptor of the annotation that carries metadata. -/
  descriptor : String := metadataDescriptor
  /-- The version that headers are compared with. -/
  version : MetadataVersion := .current
  /-- Whether a changed number of strings is reported. -/
  reportSizeDrift : Bool := true
  /-- The namespace of a mapping file that names are looked up in. -/
  sourceNamespace : String := "named"
  /-- The namespace that new names are taken from. -/
  targetNamespace : String := "intermediary"
  deriving DecidableEq, Repr

end KotlinMetadata
