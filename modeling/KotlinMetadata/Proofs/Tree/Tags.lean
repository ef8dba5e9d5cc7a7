import KotlinMetadata.Proofs.Tree.Rearranging
import Mathlib.Data.List.Infix

/-!
# What a tag stands for

The word of a tag has room for more than a field number of 32 bits and a wire
type, and what does not fit is cut off.  So a tag stands for the number that
it holds exactly if this number fits; otherwise it is an alias for the tag
that is left of it, to a message that knows the field as well as to one that
keeps it.
-/

namespace KotlinMetadata

open Wire

namespace Wire

/-- The word that stands in front of a field as its tag. -/
def Spelling.key (spelling : Spelling) : UInt64 :=
  decodeVarint spelling.tag

namespace SpellsTag

variable {tag : List UInt8} {number : UInt32} {wire : WireType}

/-- The bits above the field number are lost, and no others. -/
theorem toNat_mod (spells : SpellsTag tag number wire) :
    (decodeVarint tag).toNat % (8 * UInt32.size) = 8 * number.toNat + wire.code := by
  have number_eq : (decodeVarint tag).toNat / 8 % UInt32.size = number.toNat := by
    rw [← spells.number_eq]
    exact UInt32.toNat_ofNat'.symm
  rw [Nat.mod_mul, spells.code_eq, number_eq, Nat.add_comm]

theorem toNat_eq_iff (spells : SpellsTag tag number wire) :
    (decodeVarint tag).toNat = 8 * number.toNat + wire.code ↔
      (decodeVarint tag).toNat / 8 < UInt32.size := by
  have cut := spells.toNat_mod
  have code := spells.code_eq
  have small : number.toNat < UInt32.size := number.toNat_lt
  constructor
  · intro exact_eq
    omega
  · intro fits
    rwa [Nat.mod_eq_of_lt (by omega)] at cut

theorem number_eq_iff (spells : SpellsTag tag number wire) :
    number.toNat = (decodeVarint tag).toNat / 8 ↔
      (decodeVarint tag).toNat / 8 < UInt32.size := by
  rw [← spells.toNat_eq_iff]
  have code := spells.code_eq
  omega

/-- The tag that is written for a field is the one that was read, or what is left of it. -/
theorem tagWord_eq_iff (spells : SpellsTag tag number wire) :
    tagWord number wire = decodeVarint tag ↔ (decodeVarint tag).toNat / 8 < UInt32.size := by
  rw [← spells.toNat_eq_iff, ← UInt64.toNat_inj, toNat_tagWord, eq_comm]

end SpellsTag

/-- A tag is read from the varint that stands there. -/
theorem Read.varint_of_tag {cursor after : Cursor} {number : UInt32} {wire : WireType}
    (read : Read.tag cursor = .ok (number, wire) after) :
    ∃ tag, SpellsTag tag number wire ∧ Read.varint cursor = .ok (decodeVarint tag) after := by
  obtain ⟨_, tag, spells, passes⟩ := Read.tag_eq_ok_iff.mp read
  exact ⟨tag, spells, (Read.reads_varint_of_carries spells.carries).run passes⟩

/-- What is written for a field begins with its tag. -/
theorem Read.varint_encode (field : RawField) :
    ∃ after, Read.varint (.ofBytes field.encode) = .ok (tagWord field.number field.wire) after := by
  have carries := Read.carries_encodeVarint (tagWord field.number field.wire)
  have read := Read.reads_varint_of_carries carries
  rw [decodeVarint_encodeVarint] at read
  rw [RawField.encode, List.append_assoc]
  exact ⟨_, read _ 0 0⟩

end Wire

namespace Tree

variable {lookup : NameLookup} {levels : Nat} {kind : Kind} {bytes : List UInt8}
  {body : Message kind}

/-- A message is read from spelled fields, and keeps those that it does not know. -/
theorem exists_spellings_of_decode (decoded : decode lookup levels kind bytes = .ok body) :
    ∃ spellings fields, Spelling.buffer spellings = bytes ∧
      body = message fields ((spellings.map Spelling.field).filter (leftOver kind.fields)) := by
  rw [decode_eq_decodeMessage, decodeMessage_eq_ok_iff] at decoded
  rcases decoded with ⟨entries, fields, unknown, entries_eq, gathers, rfl⟩
  obtain ⟨⟨spellings, buffer_eq, fields_eq⟩, _⟩ :=
    exists_fieldEntries_iff.mp ⟨entries, rfl, entries_eq⟩
  exact ⟨spellings, fields, buffer_eq, by rw [gathers.unknown_eq, fields_eq]⟩

/-- How fields are spelled makes no difference to a message that is read from them. -/
theorem decode_of_map_field_eq {spellings others : List Spelling}
    (same : others.map Spelling.field = spellings.map Spelling.field)
    (decoded : decode lookup levels kind (Spelling.buffer spellings) = .ok body) :
    decode lookup levels kind (Spelling.buffer others) = .ok body := by
  rw [decode_eq_decodeMessage, decodeMessage_eq_ok_iff] at decoded ⊢
  rcases decoded with ⟨entries, fields, unknown, entries_eq, gathers, rfl⟩
  obtain ⟨⟨found, buffer_eq, fields_eq⟩, admitted⟩ :=
    exists_fieldEntries_iff.mp ⟨entries, rfl, entries_eq⟩
  obtain rfl := Spelling.buffer_injective buffer_eq
  obtain ⟨otherEntries, otherFields_eq, otherEntries_eq⟩ :=
    exists_fieldEntries_iff.mpr ⟨⟨others, rfl, same⟩, fields_eq.symm ▸ admitted⟩
  have entries_same : otherEntries.map FieldEntry.field = entries.map FieldEntry.field :=
    otherFields_eq.trans fields_eq
  have valid : ∀ raw ∈ entries.map FieldEntry.field, raw.Valid := by
    rw [← fields_eq]
    exact List.forall_mem_map.mpr fun spelling _ => spelling.valid
  have finds : FindsSame lookup (decodeInner lookup levels) kind.fields entries otherEntries :=
    findsSame_of_rearranged (.of_numbered fun _ => by rw [entries_same])
      (List.forall_mem_map.mp valid) (List.forall_mem_map.mp (entries_same ▸ valid))
  refine ⟨otherEntries, fields, _, otherEntries_eq, gathers.of_findsSame kind.soundFields finds, ?_⟩
  rw [gathers.unknown_eq, entries_same]

/-- A message is read as well from its fields as they would be written. -/
theorem decode_flatMap_encode {spellings : List Spelling}
    (decoded : decode lookup levels kind (Spelling.buffer spellings) = .ok body) :
    decode lookup levels kind ((spellings.map Spelling.field).flatMap RawField.encode) =
      .ok body := by
  have valid : ∀ raw ∈ spellings.map Spelling.field, raw.Valid :=
    List.forall_mem_map.mpr fun spelling _ => spelling.valid
  have short : ∀ raw ∈ spellings.map Spelling.field, raw.data.length < UInt64.size :=
    List.forall_mem_map.mpr fun spelling _ => spelling.length_data_lt
  obtain ⟨written, buffer_eq, fields_eq⟩ := Spelling.exists_buffer_eq_encode valid short
  rw [← buffer_eq]
  exact decode_of_map_field_eq fields_eq decoded

/-- A field that a message keeps is written with it. -/
theorem encode_infix_of_mem {fields : Tree (.fields kind.fields)} {unknown : List RawField}
    {raw : RawField} (mem : raw ∈ unknown) (index : TableName → Int32) :
    raw.encode <:+: encode index (message fields unknown) := by
  have written : raw ∈ sortFields (fields.write index ++ unknown) :=
    mem_sortFields.mpr (List.mem_append_right _ mem)
  have one := ((List.singleton_infix_iff raw _).mpr written).flatMap RawField.encode
  rwa [List.flatMap_singleton] at one

/-- A tag that is read holds its number and its wire type and nothing else exactly if the number
that stands there fits.  A message tells its fields by what is left of the numbers, so that is when
it takes a field under the number that stands there; and it writes a field that it does not know
with the tag that stood there exactly in this case too. -/
theorem tags_exact_iff (lookup : NameLookup) (levels : Nat) (kind : Kind) :
    (∀ cursor after number wire, Read.tag cursor = .ok (number, wire) after →
      ∃ key, Read.varint cursor = .ok key after ∧
        key.toNat % (8 * UInt32.size) = 8 * number.toNat + wire.code ∧
        (key.toNat = 8 * number.toNat + wire.code ↔ key.toNat / 8 < UInt32.size)) ∧
    ∀ bytes body, decode lookup levels kind bytes = .ok body →
      ∃ spellings fields, Spelling.buffer spellings = bytes ∧
        body = message fields ((spellings.map Spelling.field).filter (leftOver kind.fields)) ∧
        decode lookup levels kind
          ((spellings.map Spelling.field).flatMap RawField.encode) = .ok body ∧
        ∀ spelling ∈ spellings,
          (∀ field ∈ kind.fields, field.takes spelling.field = true →
            (field.number.toNat = spelling.key.toNat / 8 ↔
              spelling.key.toNat / 8 < UInt32.size)) ∧
          (leftOver kind.fields spelling.field = true →
            (∀ index, spelling.field.encode <:+: encode index body) ∧
            ∃ key after, Read.varint (.ofBytes spelling.field.encode) = .ok key after ∧
              (key = spelling.key ↔ spelling.key.toNat / 8 < UInt32.size)) := by
  constructor
  · intro cursor after number wire read
    obtain ⟨tag, spells, varint⟩ := Read.varint_of_tag read
    exact ⟨_, varint, spells.toNat_mod, spells.toNat_eq_iff⟩
  · intro bytes body decoded
    obtain ⟨spellings, fields, rfl, rfl⟩ := exists_spellings_of_decode decoded
    refine ⟨spellings, fields, rfl, rfl, ?_, fun spelling mem => ⟨?_, ?_⟩⟩
    · exact decode_flatMap_encode decoded
    · intro field _ taken
      rw [← Field.number_of_takes taken]
      exact spelling.spellsTag.number_eq_iff
    · intro left
      have kept : spelling.field ∈ (spellings.map Spelling.field).filter (leftOver kind.fields) :=
        List.mem_filter.mpr ⟨List.mem_map_of_mem mem, left⟩
      obtain ⟨after, varint⟩ := Read.varint_encode spelling.field
      exact ⟨encode_infix_of_mem kept, _, after, varint, spelling.spellsTag.tagWord_eq_iff⟩

/-- A version requirement whose only field is its version. -/
def versionSample : Tree (.fields Kind.versionRequirement.fields) :=
  cons (present (leaf .int32 (5 : Int32))) <| cons absent <| cons absent <| cons absent <|
    cons absent <| cons absent nil

/-- Tags may be longer than they need to be. -/
theorem tags_exact_iff_sample :
    let lookup : NameLookup := fun _ index => .error (.indexOutOfRange index)
    let body := message versionSample [⟨7, .fixed32, [1, 2, 3, 4]⟩]
    let bytes : List UInt8 := [0x88, 0, 5, 0xBD, 0, 1, 2, 3, 4]
    (∃ key after, Read.varint (.ofBytes bytes) = .ok key after ∧
      key.toNat = 8 * (1 : UInt32).toNat + WireType.varint.code) ∧
    decode lookup 0 .versionRequirement bytes = .ok body ∧
    decode lookup 0 .versionRequirement [8, 5, 0x3D, 1, 2, 3, 4] = .ok body := by
  intro lookup body bytes
  obtain ⟨ofTags, ofMessages⟩ := tags_exact_iff lookup 0 .versionRequirement
  have read : Read.tag (.ofBytes bytes) = .ok (1, .varint) ⟨[5, 0xBD, 0, 1, 2, 3, 4], 2, 0⟩ := rfl
  have decoded : decode lookup 0 .versionRequirement bytes = .ok body := by decide +kernel
  obtain ⟨key, varint, _, exact_iff⟩ := ofTags _ _ _ _ read
  obtain ⟨spellings, _, buffer_eq, _, again, _⟩ := ofMessages _ _ decoded
  have spelled : Spelling.buffer
      [ ⟨⟨1, .varint, [5]⟩, [0x88, 0], [], by decide, by decide, rfl⟩
      , ⟨⟨7, .fixed32, [1, 2, 3, 4]⟩, [0xBD, 0], [], by decide, by decide, rfl⟩ ] = bytes := by
    decide
  obtain rfl := Spelling.buffer_injective (buffer_eq.trans spelled.symm)
  refine ⟨⟨key, _, varint, exact_iff.mpr ?_⟩, decoded, again⟩
  cases varint
  decide

/-- A package without declarations. -/
def emptyPackage : Tree (.fields Kind.package.fields) :=
  cons empty <| cons empty <| cons empty <| cons absent <| cons absent <| cons absent <|
    cons empty nil

/-- The number 2³² + 1 is read as 1, by a message that has a field 1 and by one that keeps the field
and writes it as field 1. -/
theorem tags_exact_aliased :
    let bytes : List UInt8 := [0x88, 0x80, 0x80, 0x80, 0x80, 1, 5]
    let lookup : NameLookup := fun _ index => .error (.indexOutOfRange index)
    Read.tag (.ofBytes bytes) = .ok (1, .varint) ⟨[5], 6, 0⟩ ∧
      Read.varint (.ofBytes bytes) = .ok (8 * 4294967297) ⟨[5], 6, 0⟩ ∧
      (8 * 4294967297 : UInt64).toNat ≠ 8 * (1 : UInt32).toNat + WireType.varint.code ∧
      decode lookup 0 .versionRequirement bytes = .ok (message versionSample []) ∧
      decode lookup 0 .package bytes = .ok (message emptyPackage [⟨1, .varint, [5]⟩]) ∧
      encode (fun _ => 0) (message emptyPackage [⟨1, .varint, [5]⟩]) = [8, 5] := by
  intro bytes lookup
  refine ⟨rfl, rfl, by decide, by decide +kernel, by decide +kernel, ?_⟩
  have sorted : sortFields [⟨1, .varint, [5]⟩] = [⟨1, .varint, [5]⟩] := List.mergeSort_singleton _
  change (sortFields [⟨1, .varint, [5]⟩]).flatMap RawField.encode = [8, 5]
  rw [sorted]
  decide

end Tree

end KotlinMetadata
