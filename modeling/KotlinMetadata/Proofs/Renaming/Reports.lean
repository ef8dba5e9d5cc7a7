import KotlinMetadata.Proofs.Renaming.Headers
import KotlinMetadata.Proofs.Renaming.Outcome

/-!
# What is reported

What a renaming reports follows from its outcome and from what is read off the
annotation before and after: a version of another release, and a number of
strings that is not what it was.  Settings choose the supported version and
whether sizes are reported at all; what becomes of the annotation does not
depend on them.
-/

namespace KotlinMetadata

/-- Whether the numbers of a version are too few, or another release than the supported one. -/
def MetadataVersion.Misses (supported : MetadataVersion) (numbers : List Int32) : Prop :=
  numbers.length < 2 ∨ numbers[0]? ≠ some supported.major ∨ numbers[1]? ≠ some supported.minor

instance (supported : MetadataVersion) (numbers : List Int32) :
    Decidable (supported.Misses numbers) :=
  inferInstanceAs (Decidable (_ ∨ _ ∨ _))

/-- What is to be reported about an annotation of a class, by its outcome and its header before and
after. -/
def Settings.expectedReport (settings : Settings) (className : String) (outcome : Outcome)
    (before after : Header) : List Diagnostic :=
  (if outcome ≠ .passedThrough .noElements ∧ settings.version.Misses before.version then
    [.versionMismatch className before.version settings.version] else []) ++
  if outcome = .renamed ∧ settings.reportSizeDrift = true ∧
      before.strings.length ≠ after.strings.length then
    [.sizeDrift className before.strings.length after.strings.length] else []

theorem Diagnostic.toList_ofVersion? (className : String) (header : Header)
    (supported : MetadataVersion) :
    (ofVersion? className header supported).toList =
      if supported.Misses header.version then
        [versionMismatch className header.version supported] else [] := by
  unfold ofVersion? MetadataVersion.ofNumbers? MetadataVersion.Misses
  rcases header.version with _ | ⟨major, _ | ⟨minor, rest⟩⟩
  · simp
  · simp
  · by_cases sameMajor : major = supported.major <;>
      by_cases sameMinor : minor = supported.minor <;>
        simp [MetadataVersion.sameRelease, sameMajor, sameMinor]

/-- What a renaming makes of an annotation, whatever there is to report. -/
def RenamedAnnotation.essence (renamed : RenamedAnnotation) : Annotation × Outcome :=
  (renamed.result, renamed.outcome)

namespace Renamer

theorem toList_sizeReport (renamer : Renamer) (className : String) (before after : Header) :
    (renamer.sizeReport className before after).toList =
      if renamer.settings.reportSizeDrift = true ∧ before.strings.length ≠ after.strings.length then
        [.sizeDrift className before.strings.length after.strings.length] else [] := by
  rw [sizeReport, Diagnostic.ofSizes?]
  split_ifs <;> simp_all

/-- Settings change neither what becomes of an annotation nor why it cannot be renamed. -/
theorem essence_rename (names : Renaming) (settings others : Settings) (className : String)
    (note : Annotation) :
    RenamedAnnotation.essence <$> ({ names, settings } : Renamer).rename className note =
      RenamedAnnotation.essence <$>
        ({ names, settings := others } : Renamer).rename className note := by
  have tree : ∀ header, ({ names, settings } : Renamer).renameTree header =
      ({ names, settings := others } : Renamer).renameTree header := fun _ => rfl
  rw [rename, rename]
  split
  · rfl
  · simp only [tree]
    split <;> rfl
  · rfl

variable {renamer : Renamer} {className : String} {note : Annotation}
  {renamed : RenamedAnnotation}

/-- What is reported is what the headers before and after call for. -/
theorem Renames.diagnostics_eq (renames : renamer.Renames className note renamed) :
    ∃ before after, Header.ofElements? note.elements = .ok before ∧
      Header.ofElements? renamed.result.elements = .ok after ∧
      renamed.diagnostics = renamer.settings.expectedReport className renamed.outcome
        (before.getD {}) (after.getD {}) := by
  cases renames with
  | headerless read => exact ⟨none, none, read, read, rfl⟩
  | @passed header reason read passes =>
      refine ⟨some header, some header, read, read, ?_⟩
      have other : reason ≠ .noElements := by
        rintro rfl
        exact Header.passReason?_ne_noElements passes
      simp [Settings.expectedReport, Diagnostic.toList_ofVersion?, other]
  | @renamed elements before metadata given read metadataRead =>
      obtain ⟨elementsRead, after, written, afterRead⟩ :=
        Header.exists_ofElements?_writeOver read given ((metadata.map renamer.names).write before)
      -- What is written need not be what is read again, but its strings are.
      have strings := Metadata.strings_of_writeOver elementsRead metadataRead written
      refine ⟨some before, some after, read, afterRead, ?_⟩
      simp [Settings.expectedReport, Diagnostic.toList_ofVersion?, toList_sizeReport, strings]

/-- Reports are advisory and exact: settings change nothing but what is reported, and reported are a
version of another release, unless there is no header, and then a changed number of strings, if the
annotation was renamed and sizes are reported. -/
theorem rename_reports (names : Renaming) (className : String) (note : Annotation) :
    (∀ settings others : Settings,
      RenamedAnnotation.essence <$> ({ names, settings } : Renamer).rename className note =
        RenamedAnnotation.essence <$>
          ({ names, settings := others } : Renamer).rename className note) ∧
    ∀ (settings : Settings) (renamed : RenamedAnnotation),
      ({ names, settings } : Renamer).rename className note = .ok renamed →
      ∃ before after, Header.ofElements? note.elements = .ok before ∧
        Header.ofElements? renamed.result.elements = .ok after ∧
        (renamed.outcome = .passedThrough .noElements ↔ before = none) ∧
        renamed.diagnostics = settings.expectedReport className renamed.outcome
          (before.getD {}) (after.getD {}) := by
  constructor
  · intro settings others
    exact essence_rename names settings others className note
  · intro settings renamed success
    have renames := rename_eq_ok_iff.mp success
    obtain ⟨before, after, read, afterRead, diagnostics⟩ := renames.diagnostics_eq
    refine ⟨before, after, read, afterRead, ?_, diagnostics⟩
    rw [(renames.expected read).noElements, ← Header.ofElements?_eq_none_iff, read]
    exact ⟨Except.ok.inj, congrArg Except.ok⟩

/-- A part of a multi-file class that gives no version and loses a string is reported for both, and
renamed alike where sizes are not reported. -/
theorem rename_reports_sample :
    let names := Renaming.ofClassNames fun name => "b/" ++ name
    let note := Header.toAnnotation (partHeaderSample (some "Facade"))
    ∃ renamed quiet,
      ({ names } : Renamer).rename "a/Part" note = .ok renamed ∧
      ({ names, settings := { reportSizeDrift := false } } : Renamer).rename "a/Part" note =
        .ok quiet ∧
      quiet.essence = renamed.essence ∧
      renamed.diagnostics = [.versionMismatch "a/Part" [] .current, .sizeDrift "a/Part" 2 1] ∧
      quiet.diagnostics = [.versionMismatch "a/Part" [] .current] := by
  intro names note
  let header := partHeaderSample (some "Facade")
  let metadata := Metadata.multiFilePart (Payload.moduleSample []) "Facade"
  have read : Header.ofElements? note.elements = .ok (some header) :=
    Header.ofElements?_toElements header
  have metadataRead : Metadata.read header = .ok metadata := by decide +kernel
  have result : ((metadata.map names).write header).writeOver header.toElements =
      ((metadata.map names).write header).toElements :=
    Header.writeOver_toElements_of_isSome (Metadata.isSome_value?_write metadataRead names)
  have strings : ((metadata.map names).write header).strings = ["main"] := by decide +kernel
  have reports : ∀ settings renamed,
      ({ names, settings } : Renamer).rename "a/Part" note = .ok renamed →
      renamed.outcome = .renamed →
      renamed.result.elements = some ((metadata.map names).write header).toElements →
      renamed.diagnostics =
        settings.expectedReport "a/Part" .renamed header ((metadata.map names).write header) := by
    intro settings renamed success outcome elements
    obtain ⟨before, after, read', afterRead, _, diagnostics⟩ :=
      (rename_reports names "a/Part" note).2 settings renamed success
    obtain rfl : some header = before := Except.ok.inj (read.symm.trans read')
    rw [elements, Header.ofElements?_toElements] at afterRead
    obtain rfl : some _ = after := Except.ok.inj afterRead
    rwa [outcome] at diagnostics
  have success := rename_of_read { names } "a/Part" rfl read metadataRead rfl
  have quietSuccess := rename_of_read { names, settings := { reportSizeDrift := false } } "a/Part"
    rfl read metadataRead rfl
  have alike := (rename_reports names "a/Part" note).1 { reportSizeDrift := false } {}
  rw [success, quietSuccess] at alike
  refine ⟨_, _, success, quietSuccess, Except.ok.inj alike, ?_, ?_⟩
  · rw [reports _ _ success rfl (congrArg some result), Settings.expectedReport, strings]
    decide
  · rw [reports _ _ quietSuccess rfl (congrArg some result), Settings.expectedReport, strings]
    decide

end Renamer

end KotlinMetadata
