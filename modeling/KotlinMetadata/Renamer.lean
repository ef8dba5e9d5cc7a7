import KotlinMetadata.Metadata
import KotlinMetadata.Settings

/-!
# Renaming the classes of an annotation

The metadata of an annotation is read, renamed and written over the elements
it came from.  An annotation without a tree is passed through as it is.  What
is worth reporting never stops a renaming, and a renaming never depends on
what is reported.
-/

namespace KotlinMetadata

/-- Why metadata cannot be read. -/
inductive MetadataError where
  /-- An element has the wrong shape. -/
  | header (cause : HeaderError)
  /-- The payload cannot be decoded. -/
  | payload (cause : PayloadError)
  deriving DecidableEq, Repr

/-- The fault in words. -/
def MetadataError.message : MetadataError → String
  | header cause => cause.message
  | payload cause => s!"Malformed metadata payload: {cause.message}"

/-- A class whose metadata cannot be renamed. -/
structure RenameError where
  /-- The class. -/
  className : String
  /-- What is wrong. -/
  cause : MetadataError
  deriving DecidableEq, Repr

/-- The fault in words, without its cause. -/
def RenameError.message (fault : RenameError) : String :=
  s!"Failed to remap Kotlin metadata of class {fault.className}"

/-- Why an annotation is passed through. -/
inductive PassReason where
  /-- It has no elements. -/
  | noElements
  /-- It belongs to a class made by the compiler that is no lambda. -/
  | notALambda
  /-- Its kind has no tree. -/
  | noTree
  deriving DecidableEq, Repr

/-- What happened to an annotation. -/
inductive Outcome where
  | renamed
  | passedThrough (reason : PassReason)
  deriving DecidableEq, Repr

/-- An annotation after renaming. -/
structure RenamedAnnotation where
  /-- The annotation to use from now on. -/
  result : Annotation
  /-- What happened to it. -/
  outcome : Outcome
  /-- What there is to report. -/
  diagnostics : List Diagnostic

/-- A header after renaming. -/
structure RenamedHeader where
  /-- The header to use from now on. -/
  result : Header
  /-- What happened to it. -/
  outcome : Outcome
  /-- What there is to report. -/
  diagnostics : List Diagnostic

/-- A renaming with the settings of its use. -/
structure Renamer where
  /-- What becomes of names. -/
  names : Renaming
  /-- What else is set. -/
  settings : Settings := {}

namespace Renamer

/-- Whether an annotation with this descriptor carries metadata. -/
def handles (renamer : Renamer) (descriptor : String) : Bool :=
  descriptor = renamer.settings.descriptor

/-- A header with its metadata renamed, or why the header is passed through. -/
def renameTree (renamer : Renamer) (header : Header) :
    Except PayloadError (Except PassReason Header) := do
  let metadata ← Metadata.read header
  match metadata with
  | .syntheticClass none => return .error .notALambda
  | .multiFileFacade _ | .unknown _ => return .error .noTree
  | tree => return .ok ((tree.map renamer.names).write header)

/-- What there is to report about a renamed header. -/
def sizeReport (renamer : Renamer) (className : String) (before after : Header) :
    Option Diagnostic :=
  if renamer.settings.reportSizeDrift then Diagnostic.ofSizes? className before after else none

/-- Renames the metadata in an annotation of a class. -/
def rename (renamer : Renamer) (className : String) (note : Annotation) :
    Except RenameError RenamedAnnotation :=
  match note.elements, Header.ofElements? note.elements with
  | _, .error fault => .error { className, cause := .header fault }
  | some elements, .ok (some header) =>
      let versionReport := (Diagnostic.ofVersion? className header
        renamer.settings.version).toList
      match renamer.renameTree header with
      | .error fault => .error { className, cause := .payload fault }
      | .ok (.error reason) =>
          .ok { result := note, outcome := .passedThrough reason, diagnostics := versionReport }
      | .ok (.ok renamed) =>
          .ok {
            result := { note with elements := some (renamed.writeOver elements) }
            outcome := .renamed
            diagnostics :=
              versionReport ++ (renamer.sizeReport className header renamed).toList }
  | _, .ok _ =>
      .ok { result := note, outcome := .passedThrough .noElements, diagnostics := [] }

/-- Renames the metadata of a header through the annotation that would carry it. -/
def renameHeader (renamer : Renamer) (className : String) (header : Header) :
    Except RenameError RenamedHeader := do
  let note := { header.toAnnotation with descriptor := renamer.settings.descriptor }
  let renamed ← renamer.rename className note
  match Header.ofElements? renamed.result.elements with
  | .error fault => throw { className, cause := .header fault }
  | .ok result? =>
      return {
        result := result?.getD header
        outcome := renamed.outcome
        diagnostics := renamed.diagnostics }

end Renamer

end KotlinMetadata
