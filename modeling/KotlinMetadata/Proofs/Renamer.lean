import KotlinMetadata.Proofs.Metadata
import KotlinMetadata.Renamer
import KotlinMetadata.Tree.Declarations

/-!
# What a renamed annotation holds

A renamed payload is written only over elements that the annotation has.  The
elements that a payload needs are there, or it could not have been read; all
but the strings, and without these there are no names to write.  So what comes
out is the renamed tree.
-/

namespace KotlinMetadata

section

variable {elements : Elements} {before after : Header} {metadata : Metadata} {rename : Renaming}

/-- A key without elements has the value that it has in an empty header. -/
theorem Header.value?_of_lastValue?_eq_none {key : HeaderKey}
    (read : Header.ofElements elements = .ok before)
    (missing : Header.lastValue? key elements = none) :
    before.value? key = ({} : Header).value? key := by
  rw [Header.value?_of_ofElements read, missing, Option.none_or]

namespace Metadata

/-- Elements that metadata was read from include those of its payload. -/
theorem lastValue?_data_ne_none (read : Header.ofElements elements = .ok before)
    (success : Metadata.read before = .ok metadata) (hasTree : metadata.hasTree = true) :
    Header.lastValue? .data elements ≠ none := by
  intro missing
  rcases Option.isSome_iff_exists.mp ((isSome_tree? metadata).trans hasTree) with ⟨tree, mem⟩
  have same := Header.value?_of_lastValue?_eq_none read missing
  exact data_ne_nil_of_readPayload ((readPayload_of_read success).2 tree mem)
    (Header.data_of_value? same)

/-- Without an element for strings, renaming the metadata needs none. -/
theorem strings_write_of_lastValue?_eq_none (rename : Renaming)
    (read : Header.ofElements elements = .ok before)
    (success : Metadata.read before = .ok metadata)
    (missing : Header.lastValue? .strings elements = none) :
    before.strings = [] ∧ ((metadata.map rename).write before).strings = [] := by
  have stringless : before.strings = [] :=
    Header.strings_of_value? (Header.value?_of_lastValue?_eq_none read missing)
  constructor
  · exact stringless
  apply strings_write _ stringless
  intro tree mem
  rw [tree?_map] at mem
  rcases Option.map_eq_some_iff.mp mem with ⟨old, oldMem, rfl⟩
  have nameless : old.2.names = [] :=
    names_eq_nil_of_readPayload ((readPayload_of_read success).2 old oldMem) stringless
  rw [← List.length_eq_zero_iff, Tree.length_names_mapNames, nameless, List.length_nil]

/-- The payload of renamed metadata comes back from the elements that it is written over. -/
theorem data_of_writeOver (read : Header.ofElements elements = .ok before)
    (success : Metadata.read before = .ok metadata) (hasTree : metadata.hasTree = true)
    (written : Header.ofElements (((metadata.map rename).write before).writeOver elements) =
      .ok after) :
    after.data = ((metadata.map rename).write before).data := by
  have same := Header.value?_eq_of_written read written .data rfl fun missing =>
    (lastValue?_data_ne_none read success hasTree missing).elim
  exact Header.data_of_value? same

/-- The strings of renamed metadata come back from the elements that it is written over. -/
theorem strings_of_writeOver (read : Header.ofElements elements = .ok before)
    (success : Metadata.read before = .ok metadata)
    (written : Header.ofElements (((metadata.map rename).write before).writeOver elements) =
      .ok after) :
    after.strings = ((metadata.map rename).write before).strings := by
  have same := Header.value?_eq_of_written read written .strings rfl fun missing => by
    obtain ⟨old, new⟩ := strings_write_of_lastValue?_eq_none rename read success missing
    exact congrArg (some ∘ ElementValue.strings) (new.trans old.symm)
  exact Header.strings_of_value? same

/-- Elements that renamed metadata is written over are read like the header that is written. -/
theorem read_of_writeOver (read : Header.ofElements elements = .ok before)
    (success : Metadata.read before = .ok metadata) (hasTree : metadata.hasTree = true)
    (written : Header.ofElements (((metadata.map rename).write before).writeOver elements) =
      .ok after) :
    Metadata.read after = Metadata.read ((metadata.map rename).write before) := by
  have kind_eq : ((metadata.map rename).write before).kind = before.kind := kind_write _ _
  have kind : after.kind = ((metadata.map rename).write before).kind := by
    have same := Header.value?_eq_of_written read written .kind rfl fun _ =>
      congrArg (some ∘ ElementValue.int) kind_eq
    exact Header.kind_of_value? same
  refine read_congr kind ?data ?strings ?facade
  case data => exact data_of_writeOver read success hasTree written
  case strings => exact strings_of_writeOver read success written
  case facade =>
    intro part
    have part : metadata.headerKind = .multiFilePart := by
      rw [← (readPayload_of_read success).1, ← part]
      exact congrArg HeaderKind.ofCode (kind.trans kind_eq).symm
    cases metadata with
    | multiFilePart package facade =>
        have same := Header.value?_eq_of_written read written .extraText rfl
          fun missing => by
            have none := Header.value?_of_lastValue?_eq_none read missing
            rw [Header.value?, extraText_of_read success] at none
            cases none
        exact Header.extraText_of_value? same
    | _ => cases part

end Metadata

end

/-! ## Annotations -/

/-- Why a header is passed through, as its kind tells, and for a class made by the compiler whether
there is a payload. -/
def Header.passReason? (header : Header) : Option PassReason :=
  match header.headerKind with
  | .syntheticClass => if header.data.isEmpty then some .notALambda else none
  | .multiFileFacade | .unknown _ => some .noTree
  | .classBody | .fileFacade | .multiFilePart => none

namespace Renamer

variable {renamer : Renamer}

/-- A header is renamed exactly if there is a tree in it. -/
theorem renameTree_eq_ok_ok_iff {header renamed : Header} :
    renamer.renameTree header = .ok (.ok renamed) ↔
      ∃ metadata, Metadata.read header = .ok metadata ∧ metadata.hasTree = true ∧
        (metadata.map renamer.names).write header = renamed := by
  rw [renameTree, bind_eq_ok_iff]
  refine exists_congr fun metadata => and_congr_right fun _ => ?_
  cases metadata with
  | syntheticClass lambda => cases lambda <;> simp [Metadata.hasTree, pure, Except.pure]
  | _ => simp [Metadata.hasTree, pure, Except.pure]

/-- A header is passed through exactly if there is a reason to, whatever is in its payload. -/
theorem renameTree_eq_ok_error_iff {header : Header} {reason : PassReason} :
    renamer.renameTree header = .ok (.error reason) ↔ header.passReason? = some reason := by
  rw [renameTree, Metadata.read, Header.passReason?]
  cases header.headerKind with
  | syntheticClass =>
      by_cases empty : header.data.isEmpty = true <;>
        simp [empty, bind_eq_ok_iff, pure, Except.pure]
  | multiFilePart =>
      cases header.extraText <;>
        simp [bind_eq_ok_iff, pure, Except.pure, throw, throwThe, MonadExceptOf.throw]
  | _ => simp [bind_eq_ok_iff, pure, Except.pure]

/-- A header that can be read is passed through exactly if there is no tree in it. -/
theorem isSome_passReason?_of_read {header : Header} {metadata : Metadata}
    (read : Metadata.read header = .ok metadata) :
    header.passReason?.isSome = !metadata.hasTree := by
  let renamer : Renamer := { names := .identity }
  cases hasTree : metadata.hasTree with
  | true =>
      have tree := (renamer.renameTree_eq_ok_ok_iff).mpr ⟨metadata, read, hasTree, rfl⟩
      cases passes : header.passReason? with
      | none => rfl
      | some reason =>
          rw [renameTree_eq_ok_error_iff.mpr passes] at tree
          cases tree
  | false =>
      have passes : ∃ reason, renamer.renameTree header = .ok (.error reason) := by
        rw [renameTree, read]
        cases metadata with
        | syntheticClass lambda =>
            cases lambda with
            | none => exact ⟨.notALambda, rfl⟩
            | some _ => cases hasTree
        | multiFileFacade _ | unknown _ => exact ⟨.noTree, rfl⟩
        | _ => cases hasTree
      obtain ⟨reason, passes⟩ := passes
      rw [renameTree_eq_ok_error_iff.mp passes]
      rfl

/-- What renaming an annotation comes to. -/
inductive Renames (renamer : Renamer) (className : String) (note : Annotation) :
    RenamedAnnotation → Prop
  /-- Without elements, the annotation is passed through. -/
  | headerless (read : Header.ofElements? note.elements = .ok none) :
      Renames renamer className note
        { result := note, outcome := .passedThrough .noElements, diagnostics := [] }
  /-- Where there is no tree to be renamed, the annotation is passed through. -/
  | passed {header : Header} {reason : PassReason}
      (read : Header.ofElements? note.elements = .ok (some header))
      (passes : header.passReason? = some reason) :
      Renames renamer className note
        { result := note
          outcome := .passedThrough reason
          diagnostics := (Diagnostic.ofVersion? className header renamer.settings.version).toList }
  /-- A tree is renamed and written over the elements that it was read from. -/
  | renamed {elements : Elements} {header : Header} {metadata : Metadata}
      (given : note.elements = some elements)
      (read : Header.ofElements? note.elements = .ok (some header))
      (metadataRead : Metadata.read header = .ok metadata) (hasTree : metadata.hasTree = true) :
      Renames renamer className note
        { result := { note with
            elements := some (((metadata.map renamer.names).write header).writeOver elements) }
          outcome := .renamed
          diagnostics := (Diagnostic.ofVersion? className header renamer.settings.version).toList ++
            (renamer.sizeReport className header
              ((metadata.map renamer.names).write header)).toList }

theorem rename_eq_ok_iff {className : String} {note : Annotation} {renamed : RenamedAnnotation} :
    renamer.rename className note = .ok renamed ↔ renamer.Renames className note renamed := by
  constructor
  · intro success
    rw [rename] at success
    split at success
    · cases success
    · rename_i elements header given read
      dsimp only at success
      split at success
      · cases success
      · rename_i reason tree
        cases success
        exact .passed read (renameTree_eq_ok_error_iff.mp tree)
      · rename_i written tree
        cases success
        rcases renameTree_eq_ok_ok_iff.mp tree with ⟨metadata, metadataRead, hasTree, rfl⟩
        exact .renamed given read metadataRead hasTree
    · rename_i header? read headerless
      cases success
      cases header? with
      | none => exact .headerless read
      | some header =>
          rcases Header.ofElements?_eq_some_iff.mp read with ⟨elements, given, _⟩
          exact (headerless elements header given rfl).elim
  · rintro (read | ⟨read, passes⟩ | ⟨given, read, metadataRead, hasTree⟩)
    · rw [rename, read]
    · rcases Header.ofElements?_eq_some_iff.mp read with ⟨elements, given, _⟩
      rw [rename, read]
      simp only [given, renameTree_eq_ok_error_iff.mpr passes]
    · rw [rename, read]
      simp only [given, renameTree_eq_ok_ok_iff.mpr ⟨_, metadataRead, hasTree, rfl⟩]

/-- The elements of a renamed annotation are those given, with the renamed metadata that was read
from them written over them. -/
theorem renamed_of_rename {className : String} {note : Annotation} {renamed : RenamedAnnotation}
    (success : renamer.rename className note = .ok renamed) (outcome : renamed.outcome = .renamed) :
    ∃ elements header metadata, note.elements = some elements ∧
      Header.ofElements? note.elements = .ok (some header) ∧
      Metadata.read header = .ok metadata ∧ metadata.hasTree = true ∧
      renamed.result.elements =
        some (((metadata.map renamer.names).write header).writeOver elements) := by
  cases rename_eq_ok_iff.mp success with
  | headerless => cases outcome
  | passed => cases outcome
  | renamed given read metadataRead hasTree =>
      exact ⟨_, _, _, given, read, metadataRead, hasTree, rfl⟩

/-- An annotation whose metadata has a tree is renamed, and what is reported is its version and its
size. -/
theorem rename_of_read (renamer : Renamer) (className : String) {note : Annotation}
    {elements : Elements} {header : Header} {metadata : Metadata}
    (given : note.elements = some elements)
    (read : Header.ofElements? note.elements = .ok (some header))
    (metadataRead : Metadata.read header = .ok metadata) (hasTree : metadata.hasTree = true) :
    renamer.rename className note = .ok {
      result := { note with
        elements := some (((metadata.map renamer.names).write header).writeOver elements) }
      outcome := .renamed
      diagnostics := (Diagnostic.ofVersion? className header renamer.settings.version).toList ++
        (renamer.sizeReport className header
          ((metadata.map renamer.names).write header)).toList } :=
  rename_eq_ok_iff.mpr (.renamed given read metadataRead hasTree)

/-- An annotation whose metadata has a tree is renamed. -/
theorem exists_rename_of_read (renamer : Renamer) (className : String) {note : Annotation}
    {elements : Elements} {header : Header} {metadata : Metadata}
    (given : note.elements = some elements)
    (read : Header.ofElements? note.elements = .ok (some header))
    (metadataRead : Metadata.read header = .ok metadata) (hasTree : metadata.hasTree = true) :
    ∃ renamed, renamer.rename className note = .ok renamed ∧ renamed.outcome = .renamed ∧
      renamed.result = { note with
        elements := some (((metadata.map renamer.names).write header).writeOver elements) } :=
  ⟨_, renamer.rename_of_read className given read metadataRead hasTree, rfl, rfl⟩

/-- What is shipped is the renamed tree: a renamed annotation is read as the metadata of the given
one, renamed, with the fields that its messages do not know by number. -/
theorem read_of_rename {className : String} {note : Annotation} {renamed : RenamedAnnotation}
    (success : renamer.rename className note = .ok renamed) (outcome : renamed.outcome = .renamed) :
    ∃ header metadata after, Header.ofElements? note.elements = .ok (some header) ∧
      Metadata.read header = .ok metadata ∧
      Header.ofElements? renamed.result.elements = .ok (some after) ∧
      ((metadata.map renamer.names).Fits →
        Metadata.read after = .ok (metadata.map renamer.names).sortUnknown) := by
  obtain ⟨elements, header, metadata, given, read, metadataRead, hasTree, shipped⟩ :=
    renamed_of_rename success outcome
  obtain ⟨elementsRead, after, written, afterRead⟩ := Header.exists_ofElements?_writeOver read given
    ((metadata.map renamer.names).write header)
  rw [← shipped] at afterRead
  have kind : header.headerKind = (metadata.map renamer.names).headerKind := by
    rw [Metadata.headerKind_map]
    exact (Metadata.readPayload_of_read metadataRead).1
  refine ⟨header, metadata, after, read, metadataRead, afterRead, ?_⟩
  intro fits
  rw [Metadata.read_of_writeOver elementsRead metadataRead hasTree written]
  exact Metadata.read_write (by rwa [Metadata.hasTree_map])
    ((Metadata.wellFormed_of_read metadataRead).map _) fits kind

/-- A lambda that returns a class, with its descriptor. -/
def lambdaSample (className descriptor : String) : Message .function :=
  Declaration.function "invoke" [] [] (some (Declaration.type (.className className) [] []))
    (some (Declaration.methodSignature "invoke" descriptor))

/-- The annotation of a lambda, some of its elements given twice. -/
def noteSample : Annotation where
  descriptor := metadataDescriptor
  elements := some
    [ ("k", .int 1)
    , ("mv", .ints [2, 1])
    , ("d1", .strings ["unread"])
    , ("d2", .strings ["invoke", "La/Old;", "()La/Old;"])
    , ("d1", .strings
        [ "\x00\x08\x0A\x00\x0A\x02\x18\x02\x0A\x00\x10\x00\x1A\x02\x30\x01"
        , "\xA2\x06\x04\x08\x00\x10\x02" ])
    , ("k", .int 3) ]

/-- Of two elements with one name the last one counts, before and after. -/
theorem read_of_rename_sample :
    let renamer : Renamer :=
      { names := .ofClassNames fun name => if name = "a/Old" then "b/New" else name }
    ∃ renamed after, renamer.rename "a/Lambda" noteSample = .ok renamed ∧
      Header.ofElements? renamed.result.elements = .ok (some after) ∧
      Metadata.read after =
        .ok (Metadata.syntheticClass (lambdaSample "b/New" "()Lb/New;")).sortUnknown := by
  intro renamer
  let header : Header :=
    { kind := 3
      version := [2, 1]
      data :=
        [ "\x00\x08\x0A\x00\x0A\x02\x18\x02\x0A\x00\x10\x00\x1A\x02\x30\x01"
        , "\xA2\x06\x04\x08\x00\x10\x02" ]
      strings := ["invoke", "La/Old;", "()La/Old;"] }
  have read : Header.ofElements? noteSample.elements = .ok (some header) := by decide
  have metadataRead : Metadata.read header =
      .ok (.syntheticClass (lambdaSample "a/Old" "()La/Old;")) := by decide +kernel
  obtain ⟨renamed, success, outcome, _⟩ :=
    exists_rename_of_read renamer "a/Lambda" rfl read metadataRead rfl
  obtain ⟨header', metadata', after, read', metadataRead', afterRead, shipped⟩ :=
    read_of_rename success outcome
  obtain rfl : header = header' := Option.some.inj (Except.ok.inj (read.symm.trans read'))
  obtain rfl := Except.ok.inj (metadataRead.symm.trans metadataRead')
  have mapped : (Metadata.syntheticClass (lambdaSample "a/Old" "()La/Old;")).map renamer.names =
      .syntheticClass (lambdaSample "b/New" "()Lb/New;") := by decide +kernel
  rw [mapped] at shipped
  refine ⟨renamed, after, success, afterRead, shipped ?_⟩
  rintro tree ⟨⟩
  exact Payload.fits_of_weight (by decide +kernel) (by decide +kernel)

end Renamer

end KotlinMetadata
