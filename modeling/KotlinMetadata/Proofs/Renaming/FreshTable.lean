import KotlinMetadata.Proofs.Renamer

/-!
# The string table of a renamed payload

A payload is headed by a string table.  Renaming carries the fields that a
message does not know along, but it does not carry the table: that of the
renamed payload is made anew for the names in it.  What else the old table held
is gone.
-/

namespace KotlinMetadata

open Wire

namespace Metadata

/-- The payload of a header begins with the bytes of a string table, preceded by their length, and
the table is read off them; no buffer in memory is too long for that. -/
structure HeadedBy (header : Header) (table : StringTable) : Prop where
  bytes : ∃ message, Packing.unpack header.data =
    .ok (encodeVarint (UInt64.ofNat table.encode.length) ++ table.encode ++ message)
  read : ∀ bytes, Packing.unpack header.data = .ok bytes → bytes.length < UInt64.size →
    readTable header = .ok table

variable {metadata : Metadata} {header after : Header}

/-- A message in a header's payload is read behind a string table. -/
theorem exists_readTable_of_readPayload {kind : Kind} {message : Message kind}
    (success : readPayload kind header = .ok message) :
    ∃ table, readTable header = .ok table := by
  rcases bind_eq_ok_iff.mp success with ⟨bytes, unpacked, payload⟩
  obtain ⟨table, _, found, _⟩ := Payload.exists_table_of_toMessage payload
  exact ⟨table, bind_eq_ok_iff.mpr ⟨bytes, unpacked, found⟩⟩

/-- What is written is headed by the table of the names in the tree. -/
theorem headedBy_of_data_write {tree : (kind : Kind) × Message kind} (mem : tree ∈ metadata.tree?)
    (written : after.data = (metadata.write header).data) :
    HeadedBy after (Payload.numbering tree.2).table := by
  have unpacked : Packing.unpack after.data = .ok (Payload.ofMessage tree.2).bytes := by
    rw [written, (payload_write mem _).1, Packing.unpack_pack]
  constructor
  · exact ⟨_, unpacked⟩
  · intro bytes same short
    obtain rfl := Except.ok.inj (unpacked.symm.trans same)
    have heading := Payload.readTable_ofMessage (Payload.short_table_of_short short)
    exact bind_eq_ok_iff.mpr ⟨_, unpacked, heading⟩

end Metadata

namespace Renamer

open Metadata

variable {renamer : Renamer} {className : String} {note : Annotation} {renamed : RenamedAnnotation}

/-- The table in front of a renamed payload holds no fields that a string table or one of its
records does not know, so those of the old table survive exactly if there are none. -/
theorem unknown_table_of_rename (success : renamer.rename className note = .ok renamed)
    (outcome : renamed.outcome = .renamed) :
    ∃ before after table written,
      Header.ofElements? note.elements = .ok (some before) ∧
      Metadata.readTable before = .ok table ∧
      Header.ofElements? renamed.result.elements = .ok (some after) ∧
      HeadedBy after written ∧
      written.unknown = [] ∧ (∀ record ∈ written.records, record.unknown = []) ∧
      (written.unknown.Perm table.unknown ↔ table.unknown = []) := by
  obtain ⟨elements, before, metadata, given, read, metadataRead, hasTree, shipped⟩ :=
    renamed_of_rename success outcome
  obtain ⟨elementsRead, after, written, afterRead⟩ := Header.exists_ofElements?_writeOver read given
    ((metadata.map renamer.names).write before)
  rw [← shipped] at afterRead
  rcases Option.isSome_iff_exists.mp ((isSome_tree? metadata).trans hasTree) with ⟨tree, mem⟩
  obtain ⟨table, found⟩ :=
    exists_readTable_of_readPayload ((readPayload_of_read metadataRead).2 tree mem)
  have renamedMem : ⟨tree.1, tree.2.mapNames (renamer.names.apply metadata.outer)⟩ ∈
      (metadata.map renamer.names).tree? := by
    rw [tree?_map, mem]
    rfl
  have headed := headedBy_of_data_write renamedMem
    (data_of_writeOver elementsRead metadataRead hasTree written)
  exact ⟨before, after, table, _, read, found, afterRead, headed, rfl,
    fun _ => Numbering.unknown_of_mem_records _, List.nil_perm⟩

/-- The annotation of a file with a module name. -/
def fileSample (data : String) : Annotation where
  descriptor := metadataDescriptor
  elements := some
    [ ("k", .int 2)
    , ("mv", .ints [2, 1, 0])
    , ("d1", .strings [data])
    , ("d2", .strings ["main"]) ]

/-- The header of a file with a module name. -/
def fileHeaderSample (data : String) : Header where
  kind := 2
  version := [2, 1, 0]
  data := [data]
  strings := ["main"]

/-- A table without unknown fields is replaced by one without. -/
theorem unknown_table_of_rename_sample :
    let renamer : Renamer := { names := .identity }
    let note := fileSample "\x00\x04\x0A\x02\x08\x01\xA8\x06\x00"
    ∃ renamed after table written, renamer.rename "a/FileKt" note = .ok renamed ∧
      Metadata.readTable (fileHeaderSample "\x00\x04\x0A\x02\x08\x01\xA8\x06\x00") = .ok table ∧
      Header.ofElements? renamed.result.elements = .ok (some after) ∧
      HeadedBy after written ∧ written.unknown.Perm table.unknown := by
  intro renamer note
  let header := fileHeaderSample "\x00\x04\x0A\x02\x08\x01\xA8\x06\x00"
  have read : Header.ofElements? note.elements = .ok (some header) := by decide
  have metadataRead : Metadata.read header = .ok (.fileFacade (Payload.moduleSample [])) := by
    decide +kernel
  have success := renamer.rename_of_read "a/FileKt" rfl read metadataRead rfl
  obtain ⟨before, after, table, written, beforeRead, found, afterRead, headed, _, _, survive⟩ :=
    unknown_table_of_rename success rfl
  obtain rfl : header = before := Option.some.inj (Except.ok.inj (read.symm.trans beforeRead))
  have heading : Metadata.readTable header = .ok { records := [{ range := some 1 }] } := by
    decide +kernel
  have known : table.unknown = [] := by
    obtain rfl := Except.ok.inj (heading.symm.trans found)
    rfl
  exact ⟨_, after, table, written, success, found, afterRead, headed, survive.mpr known⟩

/-- A field that the old table did not know is gone from the new one. -/
theorem unknown_table_dropped :
    let renamer : Renamer := { names := .identity }
    let note := fileSample "\x00\x04\x0A\x00\x10\x05\xA8\x06\x00"
    let before := fileHeaderSample "\x00\x04\x0A\x00\x10\x05\xA8\x06\x00"
    let after := fileHeaderSample "\x00\x02\x0A\x00\xA8\x06\x00"
    ∃ renamed, renamer.rename "a/FileKt" note = .ok renamed ∧ renamed.outcome = .renamed ∧
      Header.ofElements? note.elements = .ok (some before) ∧
      Metadata.readTable before =
        .ok { records := [{}], unknown := [⟨2, .varint, [5]⟩] } ∧
      Header.ofElements? renamed.result.elements = .ok (some after) ∧
      Metadata.readTable after = .ok { records := [{}] } := by
  intro renamer note before after
  have read : Header.ofElements? note.elements = .ok (some before) := by decide
  have metadataRead : Metadata.read before = .ok (.fileFacade (Payload.moduleSample [])) := by
    decide +kernel
  have success := renamer.rename_of_read "a/FileKt" rfl read metadataRead rfl
  exact ⟨_, success, rfl, read, by decide +kernel, by decide +kernel, by decide +kernel⟩

end Renamer

end KotlinMetadata
