import KotlinMetadata.Proofs.Renamer

/-!
# Renaming a header

A header is renamed through the annotation that would carry it.  This detour
makes no difference: the annotation has an element for each value of the
header, renamed metadata has values for the same keys, and so what is read off
the renamed annotation is the header that the metadata was written into.
-/

namespace KotlinMetadata

/-- Renamed metadata gives values to the same keys as the header that it was read from. -/
theorem Metadata.isSome_value?_write {header : Header} {metadata : Metadata}
    (read : Metadata.read header = .ok metadata) (rename : Renaming) (key : HeaderKey) :
    (((metadata.map rename).write header).value? key).isSome = (header.value? key).isSome := by
  rw [value?_write]
  cases key with
  | kind | version | data | strings => simp [Header.value?]
  | packageName | extraFlags => simp [written?]
  | extraText =>
      rw [written?, facade?_map]
      cases metadata with
      | multiFilePart package facade => simp [Header.value?, extraText_of_read read]
      | _ => simp [facade?]

namespace Renamer

variable {renamer : Renamer} {className : String} {header : Header}

/-- An annotation whose payload cannot be decoded is not renamed. -/
theorem rename_of_fault {note : Annotation} {fault : PayloadError}
    (read : Header.ofElements? note.elements = .ok (some header))
    (metadataRead : Metadata.read header = .error fault) :
    renamer.rename className note = .error { className, cause := .payload fault } := by
  rcases Header.ofElements?_eq_some_iff.mp read with ⟨elements, given, _⟩
  have tree : renamer.renameTree header = .error fault := by
    rw [renameTree, metadataRead]
    rfl
  rw [rename, read]
  simp only [given, tree]

/-- The annotation that would carry a header. -/
def carrier (renamer : Renamer) (header : Header) : Annotation :=
  { header.toAnnotation with descriptor := renamer.settings.descriptor }

theorem renameHeader_of_fault {fault : RenameError}
    (failed : renamer.rename className (renamer.carrier header) = .error fault) :
    renamer.renameHeader className header = .error fault := by
  unfold carrier at failed
  rw [renameHeader, failed]
  rfl

theorem renameHeader_of_rename {renamed : RenamedAnnotation} {after : Header}
    (success : renamer.rename className (renamer.carrier header) = .ok renamed)
    (result : renamed.result.elements = some after.toElements) :
    renamer.renameHeader className header =
      .ok { result := after, outcome := renamed.outcome, diagnostics := renamed.diagnostics } := by
  unfold carrier at success
  rw [renameHeader, success]
  simp only [bind, Except.bind, result, Header.ofElements?_toElements]
  rfl

/-- A header that can be read is renamed, and comes out with the renamed metadata written into it
if there is a tree. -/
theorem exists_renameHeader_of_read (renamer : Renamer) (className : String) {metadata : Metadata}
    (metadataRead : Metadata.read header = .ok metadata) :
    ∃ renamed, renamer.renameHeader className header = .ok renamed ∧ renamed.result =
      if metadata.hasTree then (metadata.map renamer.names).write header else header := by
  have read := Header.ofElements?_toElements header
  have passes := isSome_passReason?_of_read metadataRead
  cases hasTree : metadata.hasTree with
  | true =>
      have success : renamer.rename className (renamer.carrier header) = .ok _ :=
        renamer.rename_of_read className rfl read metadataRead hasTree
      have result := Header.writeOver_toElements_of_isSome
        (Metadata.isSome_value?_write metadataRead renamer.names)
      exact ⟨_, renameHeader_of_rename success (congrArg some result), rfl⟩
  | false =>
      rw [hasTree, Bool.not_false, Option.isSome_iff_exists] at passes
      obtain ⟨reason, passes⟩ := passes
      have success : renamer.rename className (renamer.carrier header) = .ok _ :=
        rename_eq_ok_iff.mpr (.passed read passes)
      exact ⟨_, renameHeader_of_rename success rfl, rfl⟩

/-- Renaming a header fails exactly if its metadata cannot be read.  Otherwise it gives the header
with the renamed metadata written into it, or as it was if there is no tree; in any case with values
for the same keys. -/
theorem renameHeader_eq (renamer : Renamer) (className : String) (header : Header) :
    (∀ fault, renamer.renameHeader className header = .error fault ↔
      ∃ cause, Metadata.read header = .error cause ∧
        fault = { className, cause := .payload cause }) ∧
    ∀ metadata, Metadata.read header = .ok metadata →
      ∃ renamed, renamer.renameHeader className header = .ok renamed ∧
        renamed.result =
          (if metadata.hasTree then (metadata.map renamer.names).write header else header) ∧
        renamed.result.extraText.isSome = header.extraText.isSome ∧
        renamed.result.packageName.isSome = header.packageName.isSome ∧
        renamed.result.extraFlags.isSome = header.extraFlags.isSome := by
  have renames := @exists_renameHeader_of_read header renamer className
  constructor
  · intro fault
    cases metadataRead : Metadata.read header with
    | error cause =>
        have failed : renamer.renameHeader className header = .error _ :=
          renameHeader_of_fault
            (rename_of_fault (Header.ofElements?_toElements header) metadataRead)
        rw [failed]
        simp [eq_comm]
    | ok metadata =>
        obtain ⟨renamed, success, _⟩ := renames metadataRead
        simp [success]
  · intro metadata metadataRead
    obtain ⟨renamed, success, result⟩ := renames metadataRead
    have present : ∀ key, (renamed.result.value? key).isSome = (header.value? key).isSome := by
      intro key
      rw [result]
      split
      · exact Metadata.isSome_value?_write metadataRead _ key
      · rfl
    refine ⟨renamed, success, result, ?_, ?_, ?_⟩
    · simpa [Header.value?] using present .extraText
    · simpa [Header.value?] using present .packageName
    · simpa [Header.value?] using present .extraFlags

/-- The header of a part of a multi-file class with a string that nothing refers to. -/
def partHeaderSample (facade : Option String) : Header where
  kind := 5
  data := ["\x00\x80\x00\xA8\x06\x01"]
  strings := ["orphan", "main"]
  extraText := facade
  extraFlags := some 48

/-- A part is renamed with its facade, and not without one. -/
theorem renameHeader_eq_sample :
    let renamer : Renamer := { names := .ofClassNames fun name => "b/" ++ name }
    (∃ renamed, renamer.renameHeader "a/Part" (partHeaderSample (some "Facade")) = .ok renamed ∧
      renamed.result =
        (Metadata.multiFilePart (Payload.moduleSample []) "b/Facade").write
          (partHeaderSample (some "Facade")) ∧
      renamed.result.packageName.isSome = false) ∧
    renamer.renameHeader "a/Part" (partHeaderSample none) =
      .error { className := "a/Part", cause := .payload (.missingField "xs") } := by
  intro renamer
  constructor
  · have metadataRead : Metadata.read (partHeaderSample (some "Facade")) =
        .ok (.multiFilePart (Payload.moduleSample []) "Facade") := by decide +kernel
    obtain ⟨renamed, success, result, _, packageName, _⟩ :=
      (renameHeader_eq renamer "a/Part" _).2 _ metadataRead
    exact ⟨renamed, success, result, packageName⟩
  · have metadataRead : Metadata.read (partHeaderSample none) = .error (.missingField "xs") := by
      decide +kernel
    exact ((renameHeader_eq renamer "a/Part" _).1 _).mpr ⟨_, metadataRead, rfl⟩

end Renamer

end KotlinMetadata
