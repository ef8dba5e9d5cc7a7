import KotlinMetadata.Proofs.Renamer
import KotlinMetadata.Proofs.Renaming.Composition

/-!
# Renaming an annotation again

A renaming of classes that leaves its own new names alone leaves renamed
metadata alone.  What is read from a renamed annotation is that metadata with
its unknown fields by number, which makes no difference to what is written, so
renaming the annotation again gives it back as it is.
-/

namespace KotlinMetadata

theorem Tree.mapNames_sortUnknown (rename : Role → String → String) {part : Part}
    (tree : Tree part) : tree.sortUnknown.mapNames rename = (tree.mapNames rename).sortUnknown := by
  induction tree with
  | cons slot rest ihSlot ihRest =>
      simp only [sortUnknown, mapNames, ihRest]
      split
      · rfl
      · rw [ihSlot]
  | _ => simp_all [mapNames, sortUnknown]

/-! ## Writing over again -/

namespace Header

variable {elements : Elements} {key : HeaderKey}

theorem lastValue?_ne_none_of_mem {name : String} {value : ElementValue}
    (mem : (name, value) ∈ elements) (found : HeaderKey.ofText? name = some key) :
    lastValue? key elements ≠ none := by
  rw [ne_eq, lastValue?_eq_none_iff, not_not, HeaderKey.ofText?_eq_some_iff.mp found]
  exact List.mem_map_of_mem mem

/-- Writing over elements again changes nothing if the keys that occur have the same values. -/
theorem writeOver_writeOver {first second : Header}
    (agree : ∀ key, lastValue? key elements ≠ none → second.value? key = first.value? key) :
    second.writeOver (first.writeOver elements) = first.writeOver elements := by
  rw [writeOver, writeOver, List.map_map]
  apply List.map_congr_left
  rintro ⟨name, value⟩ mem
  cases found : HeaderKey.ofText? name with
  | none => simp [found]
  | some key =>
      have same := agree key (lastValue?_ne_none_of_mem mem found)
      cases own : first.value? key <;> simp [found, same, own]

end Header

namespace Metadata

/-- Unknown fields are written by number in any case. -/
@[simp]
theorem write_sortUnknown (metadata : Metadata) (header : Header) :
    metadata.sortUnknown.write header = metadata.write header := by
  cases metadata with
  | syntheticClass lambda => cases lambda <;> simp [sortUnknown, write, writePayload]
  | _ => simp [sortUnknown, write, writePayload]

theorem className_sortUnknown : ∀ body : Message .classBody,
    className body.sortUnknown = className body
  | .message (.cons _ (.cons _ (.cons (.exactly (.leaf _ _)) _))) _ => rfl

@[simp]
theorem map_sortUnknown (rename : Renaming) (metadata : Metadata) :
    metadata.sortUnknown.map rename = (metadata.map rename).sortUnknown := by
  cases metadata with
  | classBody body =>
      simp [sortUnknown, map, renameClass, className_sortUnknown, Tree.mapNames_sortUnknown]
  | syntheticClass lambda =>
      cases lambda <;> simp [sortUnknown, map, renameMembers, Tree.mapNames_sortUnknown]
  | _ => simp [sortUnknown, map, renameMembers, Tree.mapNames_sortUnknown]

@[simp]
theorem hasTree_sortUnknown (metadata : Metadata) :
    metadata.sortUnknown.hasTree = metadata.hasTree := by
  cases metadata with
  | syntheticClass lambda => cases lambda <;> rfl
  | _ => rfl

variable {metadata : Metadata}

/-- A renaming of classes that leaves its own new names alone leaves renamed metadata alone. -/
theorem map_map_of_settled {rename : String → String} (tidy : Tidy rename)
    (settled : ∀ name, rename (rename name) = rename name)
    (nested : ∀ simple ∈ metadata.namesOf .nestedName, ∃ new,
      Renaming.StaysNested rename (internalName metadata.outer) simple new) :
    (metadata.map (.ofClassNames rename)).map (.ofClassNames rename) =
      metadata.map (.ofClassNames rename) := by
  have once : rename ∘ rename = rename := funext settled
  have composed := @map_map_ofClassNames metadata rename rename tidy
  rw [once] at composed
  apply composed
  case classNames =>
    exact fun name _ => Renaming.treeName_treeName_of_settled tidy (settled _)
  case nested =>
    intro simple mem
    obtain ⟨new, stays⟩ := nested simple mem
    refine ⟨new, new, stays, ?_, stays⟩
    constructor
    · rw [← stays.inside, settled, settled, stays.inside]
    · exact fun _ => settled _

end Metadata

/-! ## Renamed elements -/

section

variable {elements : Elements} {before after : Header} {metadata : Metadata}

namespace Metadata

/-- A key that comes back as it was written is written like that again. -/
theorem value?_write_again {key : HeaderKey}
    (same : after.value? key = (metadata.write before).value? key) :
    (metadata.write after).value? key = after.value? key := by
  rw [value?_write, same, value?_write, ← Option.or_assoc, Option.or_self]

/-- Elements that metadata was written over stay as they are when it is written over them again. -/
theorem writeOver_write_writeOver (read : Header.ofElements elements = .ok before)
    (written : Header.ofElements ((metadata.write before).writeOver elements) = .ok after) :
    (metadata.write after).writeOver ((metadata.write before).writeOver elements) =
      (metadata.write before).writeOver elements := by
  apply Header.writeOver_writeOver
  intro key given
  have same : after.value? key = (metadata.write before).value? key := by
    refine Header.value?_eq_of_written read written key ?_ fun missing => absurd missing given
    rcases Option.ne_none_iff_exists'.mp given with ⟨value, last⟩
    rw [value?_write, Header.value?_of_ofElements read, last]
    simp
  rw [value?_write_again same, same]

variable {rename : Renaming}

/-- Renamed metadata is read back from the elements that it was written over. -/
theorem read_of_map_writeOver (read : Header.ofElements elements = .ok before)
    (success : Metadata.read before = .ok metadata) (hasTree : metadata.hasTree = true)
    (fits : (metadata.map rename).Fits)
    (written : Header.ofElements (((metadata.map rename).write before).writeOver elements) =
      .ok after) :
    Metadata.read after = .ok (metadata.map rename).sortUnknown := by
  have kind : before.headerKind = (metadata.map rename).headerKind := by
    rw [headerKind_map]
    exact (readPayload_of_read success).1
  rw [read_of_writeOver read success hasTree written]
  exact read_write (by rwa [hasTree_map]) ((wellFormed_of_read success).map _) fits kind

/-- Renamed metadata has as many strings when it is written again. -/
theorem strings_write_again (read : Header.ofElements elements = .ok before)
    (success : Metadata.read before = .ok metadata)
    (written : Header.ofElements (((metadata.map rename).write before).writeOver elements) =
      .ok after) :
    ((metadata.map rename).write after).strings = after.strings := by
  have same : after.value? .strings = ((metadata.map rename).write before).value? .strings :=
    congrArg (some ∘ ElementValue.strings) (strings_of_writeOver read success written)
  exact Header.strings_of_value? (value?_write_again same)

end Metadata

end

/-! ## Annotations -/

/-- Whether an annotation is read as metadata. -/
def Annotation.Holds (note : Annotation) (metadata : Metadata) : Prop :=
  ∃ header, Header.ofElements? note.elements = .ok (some header) ∧
    Metadata.read header = .ok metadata

/-- Nothing is reported about the size of an annotation. -/
def RenamedAnnotation.SameSize (renamed : RenamedAnnotation) : Prop :=
  ∀ className before after, Diagnostic.sizeDrift className before after ∉ renamed.diagnostics

theorem Diagnostic.sizeDrift_not_mem_ofVersion? {className name : String} {header : Header}
    {supported : MetadataVersion} {before after : Nat} :
    sizeDrift className before after ∉ (ofVersion? name header supported).toList := by
  unfold ofVersion?
  split
  · split <;> simp
  · simp

namespace Renamer

variable {renamer : Renamer} {className : String} {note : Annotation} {renamed : RenamedAnnotation}

theorem sizeReport_eq_none {before after : Header} (same : before.strings = after.strings) :
    renamer.sizeReport className before after = none := by
  simp [sizeReport, Diagnostic.ofSizes?, same]

/-- An annotation that is not renamed is passed through, whatever it is renamed by. -/
theorem rename_of_passed (success : renamer.rename className note = .ok renamed)
    (passed : renamed.outcome ≠ .renamed) (other : Renamer) (name : String) :
    renamed.result = note ∧
      ∃ again, other.rename name note = .ok again ∧ again.result = note ∧ again.SameSize := by
  cases rename_eq_ok_iff.mp success with
  | headerless read =>
      refine ⟨rfl, _, rename_eq_ok_iff.mpr (.headerless read), rfl, ?_⟩
      exact fun className before after => List.not_mem_nil
  | passed read passes =>
      refine ⟨rfl, _, rename_eq_ok_iff.mpr (.passed read passes), rfl, ?_⟩
      exact fun className before after => Diagnostic.sizeDrift_not_mem_ofVersion?
  | renamed => exact absurd rfl passed

/-- Renaming an annotation again changes nothing if it changes nothing in the renamed metadata. -/
theorem rename_of_map_map {elements : Elements} {before : Header} {metadata : Metadata}
    (read : Header.ofElements? (some elements) = .ok (some before))
    (metadataRead : Metadata.read before = .ok metadata) (hasTree : metadata.hasTree = true)
    (fits : (metadata.map renamer.names).Fits)
    (settled : (metadata.map renamer.names).map renamer.names = metadata.map renamer.names)
    (result : note.elements =
      some (((metadata.map renamer.names).write before).writeOver elements)) :
    ∃ again, renamer.rename className note = .ok again ∧ again.result = note ∧ again.SameSize := by
  obtain ⟨elementsRead, after, written, afterRead⟩ := Header.exists_ofElements?_writeOver read rfl
    ((metadata.map renamer.names).write before)
  rw [← result] at afterRead
  have metadataAfter : Metadata.read after = .ok (metadata.map renamer.names).sortUnknown :=
    Metadata.read_of_map_writeOver elementsRead metadataRead hasTree fits written
  -- What is read has its unknown fields by number, and so they are written in any case.
  have writtenAgain : ((metadata.map renamer.names).sortUnknown.map renamer.names).write after =
      (metadata.map renamer.names).write after := by
    rw [Metadata.map_sortUnknown, settled, Metadata.write_sortUnknown]
  refine ⟨_, renamer.rename_of_read className result afterRead metadataAfter ?_, ?_, ?_⟩
  · rw [Metadata.hasTree_sortUnknown, Metadata.hasTree_map, hasTree]
  · simp only [writtenAgain, Metadata.writeOver_write_writeOver elementsRead written, ← result]
  · intro name old new mem
    have sameStrings := Metadata.strings_write_again elementsRead metadataRead written
    simp only [writtenAgain, sizeReport_eq_none sameStrings.symm, Option.toList_none,
      List.append_nil] at mem
    exact Diagnostic.sizeDrift_not_mem_ofVersion? mem

/-- Renaming classes in an annotation again gives it back as it is, as long as new names are tidy
and stay as they are, and nested classes stay nested. -/
theorem rename_rename {rename : String → String} {settings : Settings}
    (tidy : Tidy rename) (settled : ∀ name, rename (rename name) = rename name)
    (success :
      ({ names := .ofClassNames rename, settings } : Renamer).rename className note = .ok renamed)
    (fits : ∀ metadata, note.Holds metadata → (metadata.map (.ofClassNames rename)).Fits)
    (nested : ∀ metadata, note.Holds metadata → ∀ simple ∈ metadata.namesOf .nestedName, ∃ new,
      Renaming.StaysNested rename (internalName metadata.outer) simple new)
    (others : Settings) (name : String) :
    ∃ again,
      ({ names := .ofClassNames rename, settings := others } : Renamer).rename name
        renamed.result = .ok again ∧ again.result = renamed.result ∧ again.SameSize := by
  by_cases outcome : renamed.outcome = .renamed
  case neg =>
    obtain ⟨result, again, passed⟩ := rename_of_passed success outcome
      { names := .ofClassNames rename, settings := others } name
    rw [result]
    exact ⟨again, passed⟩
  case pos =>
    obtain ⟨elements, before, metadata, given, read, metadataRead, hasTree, result⟩ :=
      renamed_of_rename success outcome
    have holds : note.Holds metadata := ⟨before, read, metadataRead⟩
    refine rename_of_map_map (given ▸ read) metadataRead hasTree (fits metadata holds) ?_ result
    exact Metadata.map_map_of_settled tidy settled (nested metadata holds)

/-- A class moved with the classes inside it. -/
def moveSample (name : String) : String :=
  if name = "a/C" then "b/D"
  else if name = "a/C$In" then "b/D$On"
  else if name = "a/C$In$1" then "b/D$On$2"
  else name

/-- A local class that extends a class in a class of its own. -/
def localSample (name simple mixed signature : String) : Metadata :=
  .classBody <| Declaration.classBody name [] [Declaration.type (.className mixed) [] []]
    (some simple) [simple] []
    { functions := [Declaration.function "f" [] [] none
        (some (Declaration.methodSignature "f" signature))] }

/-- The header of a local class with given strings. -/
def localHeaderSample (strings : List String) : Header where
  version := [2, 1]
  data :=
    [ "\x00\x0B\x0A\x02\x18\x02\x0A\x02\x08\x04\x2A\x01\x00\x18\x00\x20\x01\x32\x02\x30\x02"
    , "\x3A\x01\x01\x4A\x09\x10\x03\xA2\x06\x04\x08\x03\x10\x04" ]
  strings

/-- Moving a class again leaves the moved one alone, though its name and that of the class that it
extends are spelled in ways of their own. -/
theorem rename_rename_sample :
    let renamer : Renamer := { names := .ofClassNames moveSample }
    let header := localHeaderSample ["La/C;", "In", "a/C.In$1", "f", "(La/C$In;)La/C;"]
    let note := header.toAnnotation
    ∃ renamed again, renamer.rename "a/C" note = .ok renamed ∧ renamed.outcome = .renamed ∧
      renamer.rename "b/D" renamed.result = .ok again ∧ again.result = renamed.result ∧
      again.SameSize := by
  intro renamer header note
  let sample := localSample ".a/C" "In" "a/C.In$1" "(La/C$In;)La/C;"
  have read : Header.ofElements? note.elements = .ok (some header) := by decide
  have metadataRead : Metadata.read header = .ok sample := by decide +kernel
  have mapped : sample.map renamer.names =
      localSample ".b/D" "On" "b/D.On$2" "(Lb/D$On;)Lb/D;" := by decide +kernel
  have held : ∀ {metadata}, note.Holds metadata → metadata = sample := by
    rintro metadata ⟨header', read', metadataRead'⟩
    obtain rfl : header = header' := Option.some.inj (Except.ok.inj (read.symm.trans read'))
    exact Except.ok.inj (metadataRead'.symm.trans metadataRead)
  have others : ∀ name ∉ ["a/C", "a/C$In", "a/C$In$1"], moveSample name = name := by
    intro name new
    simp_all [moveSample]
  have settled : ∀ name, moveSample (moveSample name) = moveSample name := by
    intro name
    by_cases listed : name ∈ ["a/C", "a/C$In", "a/C$In$1"]
    · revert name
      decide
    · rw [others name listed, others name listed]
  have fits : (sample.map renamer.names).Fits := by
    rw [mapped]
    rintro tree ⟨⟩
    exact Payload.fits_of_weight (by decide +kernel) (by decide +kernel)
  have nested : ∀ simple ∈ sample.namesOf .nestedName, ∃ new,
      Renaming.StaysNested moveSample (internalName sample.outer) simple new := by
    have names : sample.namesOf .nestedName = ["In", "In"] := by decide
    have outer : internalName sample.outer = "a/C" := by decide
    rw [names, outer]
    intro simple mem
    obtain rfl : simple = "In" := by simpa using mem
    exact ⟨"On", by decide, by decide⟩
  have success := renamer.rename_of_read "a/C" rfl read metadataRead rfl
  obtain ⟨again, passed⟩ := rename_rename (.of_listed others (by decide)) settled success
    (fun _ holds => held holds ▸ fits) (fun _ holds => held holds ▸ nested) renamer.settings "b/D"
  exact ⟨_, again, success, rfl, passed⟩

end Renamer

end KotlinMetadata
