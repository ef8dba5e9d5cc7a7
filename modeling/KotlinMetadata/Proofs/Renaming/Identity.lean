import KotlinMetadata.Proofs.Renaming.Idempotence

/-!
# Renaming nothing

A renaming that keeps every class name keeps every descriptor too, so it keeps
all metadata.  An annotation that metadata was written into is then a fixed
point: what is read from it has its unknown fields by number already, and is
written as it was.
-/

namespace KotlinMetadata

/-- Descriptors keep where class names do. -/
theorem Renaming.ofClassNames_eq_identity {rename : String → String}
    (keeps : ∀ name, rename name = name) : ofClassNames rename = identity := by
  obtain rfl : rename = fun name => name := funext keeps
  have descriptors : Descriptor.mapClassNames (fun name => name) = fun descriptor => descriptor :=
    funext Descriptor.mapClassNames_id
  rw [ofClassNames, descriptors, identity]

namespace Metadata

variable (metadata : Metadata)

theorem map_identity : metadata.map .identity = metadata := by
  rw [← Renaming.ofClassNames_eq_identity fun _ => rfl, map_ofClassNames_id]

/-- Writing metadata again changes nothing. -/
@[simp]
theorem write_write (header : Header) :
    metadata.write (metadata.write header) = metadata.write header := by
  cases metadata with
  | syntheticClass lambda => cases lambda <;> rfl
  | _ => rfl

end Metadata

namespace Renamer

variable {metadata : Metadata}

/-- Renaming nothing keeps metadata, and keeps every annotation that metadata with a tree was
written into. -/
theorem rename_identity :
    metadata.map .identity = metadata ∧
      (∀ rename : String → String, (∀ name, rename name = name) →
        metadata.map (.ofClassNames rename) = metadata) ∧
      ∀ (header : Header) (settings : Settings) (className : String), metadata.hasTree = true →
        metadata.WellFormed → metadata.Fits → header.headerKind = metadata.headerKind →
          let note := Header.toAnnotation (metadata.write header)
          ∃ renamed,
            ({ names := .identity, settings } : Renamer).rename className note = .ok renamed ∧
              renamed.result = note ∧ renamed.outcome = .renamed ∧ renamed.SameSize := by
  refine ⟨metadata.map_identity, fun rename keeps => ?_, ?_⟩
  · rw [Renaming.ofClassNames_eq_identity keeps, metadata.map_identity]
  · intro header settings className hasTree wellFormed fits kind note
    have written := Header.ofElements?_toElements (metadata.write header)
    have read := Metadata.read_write hasTree wellFormed fits kind
    -- The unknown fields that were read are by number, which makes no difference to writing them.
    have kept : (metadata.sortUnknown.map .identity).write (metadata.write header) =
        metadata.write header := by
      rw [Metadata.map_identity, Metadata.write_sortUnknown, Metadata.write_write]
    refine ⟨_, rename_of_read _ className rfl written read ?_, ?_, rfl, ?_⟩
    · rwa [Metadata.hasTree_sortUnknown]
    · simp only [kept, Header.writeOver_toElements]
      rfl
    · intro name before after mem
      simp only [kept, sizeReport_eq_none, Option.toList_none, List.append_nil] at mem
      exact Diagnostic.sizeDrift_not_mem_ofVersion? mem

/-- A part of a multi-file class keeps its facade, and fields that it does not know as they were
written. -/
theorem rename_identity_sample :
    let metadata : Metadata :=
      .multiFilePart (Payload.moduleSample [.bytes 200 [7], ⟨9, .varint, [0x85, 0]⟩]) ".a/Facade"
    let header : Header := { kind := 5, version := [2, 1], extraFlags := some 48 }
    let note := Header.toAnnotation (metadata.write header)
    ∃ renamed, ({ names := .identity } : Renamer).rename "a/Part" note = .ok renamed ∧
      renamed.result = note ∧ renamed.outcome = .renamed ∧ renamed.SameSize := by
  intro metadata header
  refine rename_identity.2.2 header {} "a/Part" rfl ?wellFormed ?fits (by decide)
  case wellFormed =>
    rintro tree ⟨⟩
    exact ⟨by decide, by decide⟩
  case fits =>
    rintro tree ⟨⟩
    exact Payload.fits_of_weight (by decide) (by decide +kernel)

end Renamer

end KotlinMetadata
