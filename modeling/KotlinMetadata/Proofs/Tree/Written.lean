import KotlinMetadata.Proofs.Tree.Gathering
import KotlinMetadata.Proofs.Wire.Buffer

/-!
# What is written for a message

The fields of a message become fields of a buffer that can stand there, and
each of them is taken by the field of the schema that it was written for and by
no other.  A field that carries a message is written only where there is one.
-/

namespace KotlinMetadata

open Wire

/-- A field of the schema that can be written: its number is not zero, and if its values are
packed, they are varints. -/
def Field.Sound (field : Field) : Prop :=
  field.number ≠ 0 ∧ (field.arity = .repeated true → field.type.wire = .varint)

instance (field : Field) : Decidable field.Sound :=
  inferInstanceAs (Decidable (_ ∧ _))

/-- Fields that a message can be written with: no number is used twice. -/
structure SoundFields (fields : List Field) : Prop where
  ascending : fields.Pairwise fun a b => a.number < b.number
  sound : ∀ field ∈ fields, field.Sound

theorem Kind.soundFields (kind : Kind) : SoundFields kind.fields where
  ascending := kind.fields_ascending
  sound := by cases kind <;> decide

namespace Field

variable {field : Field} {raw : RawField} {payloads : List (List UInt8)}

theorem number_of_takes (taken : field.takes raw = true) : raw.number = field.number := by
  simp only [takes, accepts, Bool.and_eq_true, decide_eq_true_eq] at taken
  exact taken.1

/-- What is written for a field is taken by it. -/
theorem takes_of_mem_rawFields (sound : field.Sound) (mem : raw ∈ field.rawFields payloads) :
    field.takes raw = true := by
  rw [rawFields] at mem
  split at mem
  · rename_i packed
    split at mem
    · cases mem
    · rw [List.mem_singleton.mp mem]
      simp [takes, accepts, packable, packed, sound.2 packed, RawField.bytes]
  · rcases List.mem_map.mp mem with ⟨data, _, rfl⟩
    simp [takes, accepts]

/-- Payloads of the right shape make fields of the right shape. -/
theorem carries_of_mem_rawFields
    (carries : ∀ payload ∈ payloads, field.type.wire.Carries payload)
    (mem : raw ∈ field.rawFields payloads) : raw.wire.Carries raw.data := by
  rw [rawFields] at mem
  split at mem
  · split at mem
    · cases mem
    · rw [List.mem_singleton.mp mem]
      trivial
  · rcases List.mem_map.mp mem with ⟨data, dataMem, rfl⟩
    exact carries data dataMem

/-- Where something is written for a field, there is a value. -/
theorem exists_payload_of_mem_rawFields (mem : raw ∈ field.rawFields payloads) :
    ∃ payload, payload ∈ payloads := by
  rw [rawFields] at mem
  split at mem
  · split at mem
    · cases mem
    · rename_i nonempty
      exact List.exists_mem_of_ne_nil payloads (by simpa using nonempty)
  · rcases List.mem_map.mp mem with ⟨data, dataMem, _⟩
    exact ⟨data, dataMem⟩

variable (field) in
/-- Each payload stands in one of the fields that are written. -/
theorem exists_length_le_of_mem_payloads {payload : List UInt8} (mem : payload ∈ payloads) :
    ∃ raw ∈ field.rawFields payloads, payload.length ≤ raw.data.length := by
  rw [rawFields]
  split
  · rw [if_neg (by simpa using List.ne_nil_of_mem mem)]
    exact ⟨_, List.mem_singleton_self _, (List.sublist_flatten_of_mem mem).length_le⟩
  · exact ⟨_, List.mem_map_of_mem mem, Nat.le_refl _⟩

end Field

namespace SoundFields

variable {field : Field} {fields : List Field} {raw : RawField}

theorem tail (sound : SoundFields (field :: fields)) : SoundFields fields where
  ascending := (List.pairwise_cons.mp sound.ascending).2
  sound other mem := sound.sound other (List.mem_cons_of_mem field mem)

/-- What a later field takes is not taken by the first. -/
theorem not_takes (sound : SoundFields (field :: fields)) {other : Field} (mem : other ∈ fields)
    (taken : other.takes raw = true) : field.takes raw = false := by
  have below := (List.pairwise_cons.mp sound.ascending).1 other mem
  cases clash : field.takes raw with
  | false => rfl
  | true =>
      rw [← Field.number_of_takes clash, ← Field.number_of_takes taken] at below
      exact absurd below (UInt32.lt_irrefl _)

/-- The first field that takes a field of a buffer is the only one. -/
theorem find?_of_takes (sound : SoundFields fields) (mem : field ∈ fields)
    (taken : field.takes raw = true) :
    fields.find? (·.accepts raw.number raw.wire) = some field := by
  induction fields with
  | nil => cases mem
  | cons first fields ih =>
      rcases List.mem_cons.mp mem with rfl | later
      · exact List.find?_cons_of_pos taken
      · have skipped : first.accepts raw.number raw.wire = false := sound.not_takes later taken
        simp only [List.find?_cons, skipped]
        exact ih sound.tail later

end SoundFields

/-- The field that a kind knows for a field of a buffer is the one that takes it. -/
theorem Kind.field?_of_takes {kind : Kind} {field : Field} {raw : RawField}
    (mem : field ∈ kind.fields) (taken : field.takes raw = true) :
    kind.field? raw.number raw.wire = some field :=
  kind.soundFields.find?_of_takes mem taken

/-- A field of a buffer that a kind does not know is taken by none of its fields. -/
theorem Kind.field?_eq_none_iff {kind : Kind} {raw : RawField} :
    kind.field? raw.number raw.wire = none ↔ ∀ field ∈ kind.fields, field.takes raw = false := by
  simp [Kind.field?, Field.takes]

namespace Tree

variable {index : TableName → Int32}

/-- What is written for a value has the shape of its wire type. -/
theorem carries_write : ∀ {type : ValueType} (value : Tree (.value type)),
    type.wire.Carries (value.write index : List UInt8)
  | _, leaf .int32 _ => Read.carries_encodeVarint _
  | _, leaf .bool _ => Read.carries_encodeVarint _
  | _, leaf .sint64 _ => Read.carries_encodeVarint _
  | _, leaf .float _ => length_littleEndian 4 _
  | _, leaf .double _ => length_littleEndian 8 _
  | _, leaf .text _ => trivial
  | _, leaf (.name _) _ => Read.carries_encodeVarint _
  | _, message _ _ => trivial

theorem height_pos_of_isMessage : ∀ {type : ValueType} (value : Tree (.value type)),
    type.isMessage = true → 0 < value.height
  | _, leaf _ _, isMessage => nomatch isMessage
  | _, message _ _, _ => Nat.succ_pos _

theorem carries_of_mem_write_slot {arity : Arity} {type : ValueType}
    {slot : Tree (.slot arity type)} {payload : List UInt8} (mem : payload ∈ slot.write index) :
    type.wire.Carries payload := by
  rw [write_slot] at mem
  rcases List.mem_map.mp mem with ⟨value, _, rfl⟩
  exact carries_write value

/-- What is written for fields is taken by one of them and can stand in a buffer; a field that
carries a message makes the tree higher. -/
theorem exists_takes_of_mem_write : ∀ {fields : List Field} {tree : Tree (.fields fields)},
    SoundFields fields → ∀ {raw : RawField}, raw ∈ tree.write index →
      ∃ field ∈ fields, field.takes raw = true ∧ raw.Valid ∧
        (field.type.isMessage = true → 0 < tree.height)
  | _, nil, _, _, mem => nomatch mem
  | _, @cons field fields slot rest, sound, raw, mem => by
      rcases List.mem_append.mp mem with first | later
      · have fieldSound := sound.sound field List.mem_cons_self
        have taken := Field.takes_of_mem_rawFields fieldSound first
        refine ⟨field, List.mem_cons_self, taken, ⟨?_, ?_⟩, ?_⟩
        · rw [Field.number_of_takes taken]
          exact fieldSound.1
        · exact Field.carries_of_mem_rawFields (fun _ => carries_of_mem_write_slot) first
        · intro isMessage
          obtain ⟨payload, payloadMem⟩ := Field.exists_payload_of_mem_rawFields first
          rw [write_slot] at payloadMem
          rcases List.mem_map.mp payloadMem with ⟨value, valueMem, _⟩
          have below := height_slot_le_iff.mp (Nat.le_refl slot.height) value valueMem
          have positive := height_pos_of_isMessage value isMessage
          exact Nat.lt_of_lt_of_le (Nat.lt_of_lt_of_le positive below) (Nat.le_max_left _ _)
      · obtain ⟨other, otherMem, taken, valid, higher⟩ := exists_takes_of_mem_write sound.tail later
        exact ⟨other, List.mem_cons_of_mem field otherMem, taken, valid,
          fun isMessage => Nat.lt_of_lt_of_le (higher isMessage) (Nat.le_max_right _ _)⟩

end Tree

end KotlinMetadata
