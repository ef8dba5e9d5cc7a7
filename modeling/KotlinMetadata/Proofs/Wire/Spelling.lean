import KotlinMetadata.Proofs.Wire.Reading
import KotlinMetadata.Proofs.Wire.Varint

/-!
# How fields are spelled

A field can stand in a buffer in more than one way, because the varints of its
tag and of its length may be longer than they need to be.  A buffer can be
read exactly if it is made of spelled fields, and then in one way only.
-/

namespace KotlinMetadata.Wire

/-- A varint is read as the tag of a field. -/
structure SpellsTag (tag : List UInt8) (number : UInt32) (wire : WireType) : Prop where
  carries : WireType.varint.Carries tag
  number_eq : UInt32.ofNat ((decodeVarint tag).toNat / 8) = number
  code_eq : (decodeVarint tag).toNat % 8 = wire.code

/-- What stands between the tag and the payload of a field: a varint that is read as the length of
the payload, if the wire type asks for one. -/
def SpellsLength : WireType → List UInt8 → List UInt8 → Prop
  | .len, length, data =>
      WireType.varint.Carries length ∧ (decodeVarint length).toNat = data.length
  | _, length, _ => length = []

instance (tag : List UInt8) (number : UInt32) (wire : WireType) :
    Decidable (SpellsTag tag number wire) :=
  decidable_of_iff (WireType.varint.Carries tag ∧
      UInt32.ofNat ((decodeVarint tag).toNat / 8) = number ∧
        (decodeVarint tag).toNat % 8 = wire.code)
    ⟨fun ⟨carries, number_eq, code_eq⟩ => ⟨carries, number_eq, code_eq⟩,
      fun ⟨carries, number_eq, code_eq⟩ => ⟨carries, number_eq, code_eq⟩⟩

instance : (wire : WireType) → (length data : List UInt8) →
    Decidable (SpellsLength wire length data)
  | .len, length, data => inferInstanceAs (Decidable
      (WireType.varint.Carries length ∧ (decodeVarint length).toNat = data.length))
  | .varint, length, _ => inferInstanceAs (Decidable (length = []))
  | .fixed64, length, _ => inferInstanceAs (Decidable (length = []))
  | .fixed32, length, _ => inferInstanceAs (Decidable (length = []))

theorem SpellsLength.eq_nil {wire : WireType} {length data : List UInt8}
    (spells : SpellsLength wire length data) (other : wire ≠ .len) : length = [] := by
  cases wire with
  | len => exact absurd rfl other
  | _ => exact spells

/-- A field together with the bytes of its tag and of its length. -/
@[ext]
structure Spelling where
  /-- The field. -/
  field : RawField
  /-- The bytes of its tag. -/
  tag : List UInt8
  /-- The bytes of the length of its payload, if it has one. -/
  length : List UInt8
  valid : field.Valid
  spellsTag : SpellsTag tag field.number field.wire
  spellsLength : SpellsLength field.wire length field.data

/-- A field as it stands in a buffer. -/
def Spelling.bytes (spelling : Spelling) : List UInt8 :=
  spelling.tag ++ (spelling.length ++ spelling.field.data)

/-- The buffer that spelled fields make. -/
def Spelling.buffer (spellings : List Spelling) : List UInt8 :=
  spellings.flatMap bytes

theorem toNat_tagWord (number : UInt32) (wire : WireType) :
    (tagWord number wire).toNat = 8 * number.toNat + wire.code := by
  have small : number.toNat < 4294967296 := number.toNat_lt
  have code : wire.code ≤ 5 := by cases wire <;> decide
  rw [tagWord, UInt64.toNat_ofNat', Nat.mod_eq_of_lt]
  simp only [Nat.reducePow]
  omega

/-- What is written for a tag is read as one. -/
theorem spellsTag_tagWord (number : UInt32) (wire : WireType) :
    SpellsTag (encodeVarint (tagWord number wire)) number wire := by
  have small : wire.code < 8 := by cases wire <;> decide
  refine ⟨Read.carries_encodeVarint _, ?_, ?_⟩
  · have quotient : (tagWord number wire).toNat / 8 = number.toNat := by
      rw [toNat_tagWord]
      omega
    rw [decodeVarint_encodeVarint, quotient, UInt32.ofNat_toNat]
  · rw [decodeVarint_encodeVarint, toNat_tagWord]
    omega

theorem WireType.eq_code_of_ofCode? {code : Nat} {wire : WireType}
    (found : ofCode? code = some wire) : code = wire.code := by
  unfold ofCode? at found
  split at found <;> cases found <;> rfl

namespace Read

theorem reads_tag {tag : List UInt8} {number : UInt32} {wire : WireType}
    (spells : SpellsTag tag number wire) (nonzero : number ≠ 0) :
    Reads Read.tag tag (number, wire) := by
  refine Reads.get fun cursor => (reads_varint_of_carries spells.carries).finish ?_
  simp only [spells.number_eq, spells.code_eq, WireType.ofCode?_code, nonzero, if_false]
  exact Reads.pure (number, wire)

theorem tag_eq_ok_iff {cursor after : Cursor} {number : UInt32} {wire : WireType} :
    Read.tag cursor = .ok (number, wire) after ↔
      number ≠ 0 ∧ ∃ tag, SpellsTag tag number wire ∧ cursor.Passes tag after := by
  constructor
  · intro read
    rw [tag, bind_eq_ok_iff] at read
    rcases read with ⟨_, _, here, read⟩
    cases here
    rw [bind_eq_ok_iff] at read
    rcases read with ⟨key, _, first, read⟩
    rcases varint_eq_ok_iff.mp first with ⟨tag, carries, rfl, passes⟩
    split at read
    · cases read
    · rename_i nonzero
      split at read
      · rename_i found
        cases read
        exact ⟨nonzero, tag, ⟨carries, rfl, WireType.eq_code_of_ofCode? found⟩, passes⟩
      · cases read
  · rintro ⟨nonzero, tag, spells, passes⟩
    exact (reads_tag spells nonzero).run passes

theorem payload_eq_ok_iff {wire : WireType} {cursor after : Cursor} {data : List UInt8} :
    payload wire cursor = .ok data after ↔
      wire.Carries data ∧ ∃ length, SpellsLength wire length data ∧
        cursor.Passes (length ++ data) after := by
  cases wire with
  | varint => simp [payload, SpellsLength, groups_eq_ok_iff]
  | fixed64 => simp [payload, SpellsLength, take_eq_ok_iff, WireType.Carries]
  | len => simp [payload, SpellsLength, slice_eq_ok_iff, WireType.Carries, and_assoc]
  | fixed32 => simp [payload, SpellsLength, take_eq_ok_iff, WireType.Carries]

/-- Reading a field passes its spelling. -/
theorem fieldEntry_eq_ok_iff {admits : UInt32 → WireType → Bool} {cursor after : Cursor}
    {entry : FieldEntry} :
    fieldEntry admits cursor = .ok entry after ↔
      admits entry.field.number entry.field.wire = true ∧
        ∃ spelling : Spelling, spelling.field = entry.field ∧
          entry.offset = cursor.position + spelling.tag.length ∧
            cursor.Passes spelling.bytes after := by
  constructor
  · intro read
    rw [fieldEntry, bind_eq_ok_iff] at read
    rcases read with ⟨⟨number, wire⟩, between, tagRead, read⟩
    obtain ⟨nonzero, tag, spellsTag, tagPassed⟩ := tag_eq_ok_iff.mp tagRead
    rw [bind_eq_ok_iff] at read
    rcases read with ⟨_, _, here, read⟩
    cases here
    split at read
    · rename_i admitted
      rw [bind_eq_ok_iff] at read
      rcases read with ⟨field, _, fieldRead, read⟩
      cases read
      rw [rawField, bind_eq_ok_iff] at fieldRead
      rcases fieldRead with ⟨data, _, payloadRead, fieldRead⟩
      cases fieldRead
      obtain ⟨carries, length, spellsLength, passed⟩ := payload_eq_ok_iff.mp payloadRead
      exact ⟨admitted, ⟨⟨number, wire, data⟩, tag, length, ⟨nonzero, carries⟩, spellsTag,
        spellsLength⟩, rfl, tagPassed.position_eq, tagPassed.append passed⟩
    · cases read
  · rintro ⟨admitted, spelling, field_eq, offset_eq, passes⟩
    rcases entry with ⟨offset, field⟩
    obtain rfl : spelling.field = field := field_eq
    obtain rfl : offset = cursor.position + spelling.tag.length := offset_eq
    rcases passes.split with ⟨between, tagPassed, passed⟩
    rw [← tagPassed.position_eq]
    refine bind_eq_ok_iff.mpr ⟨_, between, tag_eq_ok_iff.mpr
      ⟨spelling.valid.number_ne_zero, spelling.tag, spelling.spellsTag, tagPassed⟩, ?_⟩
    refine bind_eq_ok_iff.mpr ⟨_, _, rfl, ?_⟩
    rw [if_pos admitted]
    have payloadRead := payload_eq_ok_iff.mpr
      ⟨spelling.valid.carries, spelling.length, spelling.spellsLength, passed⟩
    exact bind_eq_ok_iff.mpr
      ⟨spelling.field, after, bind_eq_ok_iff.mpr ⟨_, _, payloadRead, rfl⟩, rfl⟩

/-- Admitting fewer fields changes nothing but that a field may be refused. -/
theorem fieldEntry_eq_or_refused {admits admitsFull : UInt32 → WireType → Bool}
    (fewer : ∀ number wire, admits number wire = true → admitsFull number wire = true)
    (cursor : Cursor) :
    fieldEntry admits cursor = fieldEntry admitsFull cursor ∨
      ∃ offset after, fieldEntry admits cursor =
        .error (.nestedTooDeep nestingLimit offset) after := by
  simp only [fieldEntry, bind, EStateM.bind]
  cases tag cursor with
  | error fault after => exact .inl rfl
  | ok key after =>
      rcases key with ⟨number, wire⟩
      cases admitted : admits number wire with
      | true =>
          left
          simp only [admitted, fewer number wire admitted]
      | false =>
          right
          refine ⟨after.position, after, ?_⟩
          simp only [admitted]
          rfl

end Read

namespace Spelling

theorem bytes_ne_nil (spelling : Spelling) : spelling.bytes ≠ [] := by
  intro empty
  have tagless : spelling.tag = [] := (List.append_eq_nil_iff.mp empty).1
  have shape := spelling.spellsTag.carries.1
  rw [tagless] at shape
  exact shape.elim

/-- A spelled field is read wherever it stands. -/
theorem fieldEntry_bytes {admits : UInt32 → WireType → Bool} {spelling : Spelling}
    (admitted : admits spelling.field.number spelling.field.wire = true) (rest : List UInt8)
    (position depth : Nat) :
    Read.fieldEntry admits ⟨spelling.bytes ++ rest, position, depth⟩ =
      .ok ⟨position + spelling.tag.length, spelling.field⟩
        ⟨rest, position + spelling.bytes.length, depth⟩ :=
  Read.fieldEntry_eq_ok_iff.mpr ⟨admitted, spelling, rfl, rfl, rfl, rfl, rfl⟩

/-- Bytes begin with one spelled field at most. -/
theorem eq_of_append_eq {spelling other : Spelling} {rest otherRest : List UInt8}
    (same : spelling.bytes ++ rest = other.bytes ++ otherRest) :
    spelling = other ∧ rest = otherRest := by
  have everyRead : ∀ (spelling : Spelling) rest,
      Read.fieldEntry (fun _ _ => true) ⟨spelling.bytes ++ rest, 0, 0⟩ = _ :=
    fun _ rest => fieldEntry_bytes rfl rest 0 0
  have read := everyRead spelling rest
  rw [same, everyRead] at read
  simp only [EStateM.Result.ok.injEq, FieldEntry.mk.injEq, Cursor.mk.injEq, Nat.zero_add] at read
  obtain ⟨⟨tagLength, field_eq⟩, rest_eq, _⟩ := read
  rw [rest_eq] at same
  have bytes_eq := List.append_cancel_right same
  obtain ⟨tag_eq, behind⟩ := List.append_inj bytes_eq tagLength.symm
  rw [field_eq] at behind
  exact ⟨Spelling.ext field_eq.symm tag_eq (List.append_cancel_right behind), rest_eq.symm⟩

theorem buffer_cons (spelling : Spelling) (spellings : List Spelling) :
    buffer (spelling :: spellings) = spelling.bytes ++ buffer spellings :=
  List.flatMap_cons

/-- A buffer is made of spelled fields in one way only. -/
theorem buffer_injective {spellings others : List Spelling}
    (same : buffer spellings = buffer others) : spellings = others := by
  induction spellings generalizing others with
  | nil =>
      cases others with
      | nil => rfl
      | cons other others =>
          have empty : other.bytes ++ buffer others = [] := same.symm
          exact absurd (List.append_eq_nil_iff.mp empty).1 other.bytes_ne_nil
  | cons spelling spellings ih =>
      cases others with
      | nil =>
          have empty : spelling.bytes ++ buffer spellings = [] := same
          exact absurd (List.append_eq_nil_iff.mp empty).1 spelling.bytes_ne_nil
      | cons other others =>
          obtain ⟨rfl, rest_eq⟩ := eq_of_append_eq same
          rw [ih rest_eq]

/-! ## Shortest spellings -/

/-- The tag and the length of a field are no longer than they need to be. -/
structure IsShortest (spelling : Spelling) : Prop where
  tag : ShortestVarint (8 * spelling.field.number.toNat + spelling.field.wire.code) spelling.tag
  length : spelling.field.wire = .len →
    ShortestVarint spelling.field.data.length spelling.length

/-- What a length is spelled for is no longer than a length can be. -/
theorem length_data_lt (spelling : Spelling) : spelling.field.data.length < UInt64.size := by
  have carries := spelling.valid.carries
  have spells := spelling.spellsLength
  revert carries spells
  cases spelling.field.wire with
  | varint => exact fun carries _ => Nat.lt_of_le_of_lt carries.2 (by decide)
  | fixed64 => exact fun length_eq _ => length_eq ▸ (by decide : 8 < UInt64.size)
  | len => exact fun _ spells => spells.2 ▸ (decodeVarint spelling.length).toNat_lt
  | fixed32 => exact fun length_eq _ => length_eq ▸ (by decide : 4 < UInt64.size)

/-- A field is written in its shortest spelling. -/
theorem bytes_eq_encode {spelling : Spelling} (shortest : spelling.IsShortest) :
    spelling.bytes = spelling.field.encode := by
  have tag_eq :
      spelling.tag = encodeVarint (tagWord spelling.field.number spelling.field.wire) := by
    have tag := shortest.tag
    rw [← toNat_tagWord] at tag
    exact shortestVarint_iff.mp tag
  have length_eq : spelling.length = if spelling.field.wire = .len then
      encodeVarint (UInt64.ofNat spelling.field.data.length) else [] := by
    split
    · rename_i len
      have length := shortest.length len
      rw [← Read.toNat_ofNat_length spelling.length_data_lt] at length
      exact shortestVarint_iff.mp length
    · rename_i other
      exact spelling.spellsLength.eq_nil other
  rw [bytes, RawField.encode, tag_eq, length_eq, List.append_assoc]

/-- The shortest spelling of a field that can stand in a buffer. -/
def ofField (field : RawField) (valid : field.Valid)
    (short : field.data.length < UInt64.size) : Spelling where
  field
  tag := encodeVarint (tagWord field.number field.wire)
  length := if field.wire = .len then encodeVarint (UInt64.ofNat field.data.length) else []
  valid
  spellsTag := spellsTag_tagWord field.number field.wire
  spellsLength := by
    cases field.wire with
    | len =>
        rw [if_pos rfl]
        refine ⟨Read.carries_encodeVarint _, ?_⟩
        rw [decodeVarint_encodeVarint, Read.toNat_ofNat_length short]
    | _ => rfl

theorem isShortest_ofField {field : RawField} (valid : field.Valid)
    (short : field.data.length < UInt64.size) : (ofField field valid short).IsShortest where
  tag := by
    change ShortestVarint (8 * field.number.toNat + field.wire.code) _
    rw [← toNat_tagWord]
    exact shortestVarint_iff.mpr rfl
  length := by
    intro len
    change ShortestVarint field.data.length _
    rw [← Read.toNat_ofNat_length short]
    exact shortestVarint_iff.mpr (if_pos len)

/-- Fields that can stand in a buffer make one when they are written one after the other. -/
theorem exists_buffer_eq_encode {fields : List RawField} (valid : ∀ field ∈ fields, field.Valid)
    (short : ∀ field ∈ fields, field.data.length < UInt64.size) :
    ∃ spellings, buffer spellings = fields.flatMap RawField.encode ∧
      spellings.map Spelling.field = fields := by
  induction fields with
  | nil => exact ⟨[], rfl, rfl⟩
  | cons field fields ih =>
      rw [List.forall_mem_cons] at valid short
      obtain ⟨spellings, buffer_eq, fields_eq⟩ := ih valid.2 short.2
      have bytes_eq := bytes_eq_encode (isShortest_ofField valid.1 short.1)
      refine ⟨ofField field valid.1 short.1 :: spellings, ?_, congrArg (field :: ·) fields_eq⟩
      rw [buffer_cons, List.flatMap_cons, bytes_eq, buffer_eq]
      rfl

end Spelling

end KotlinMetadata.Wire
