import KotlinMetadata.Proofs.Faults
import KotlinMetadata.Proofs.Wire.Sorting
import KotlinMetadata.Proofs.Wire.Spelling

/-!
# Whole buffers

A buffer of written fields is read back field by field, and the payload of a
packed list varint by varint.  Whatever is read from any buffer can be written
again, and admitting fewer messages only cuts the reading short.
-/

namespace KotlinMetadata.Wire

/-- A field is at least as long as its payload. -/
theorem RawField.length_data_le (field : RawField) : field.data.length ≤ field.encode.length := by
  simp only [RawField.encode, List.length_append]
  omega

/-- A message is at least as long as each of its payloads. -/
theorem length_data_le_of_mem {field : RawField} {fields : List RawField} (mem : field ∈ fields) :
    field.data.length ≤ (encodeFields fields).length := by
  have sub : field.encode.Sublist ((sortFields fields).flatMap RawField.encode) :=
    List.sublist_flatten_of_mem (List.mem_map_of_mem (mem_sortFields.mpr mem))
  exact Nat.le_trans field.length_data_le sub.length_le

section

variable {admits : UInt32 → WireType → Bool}

/-- Spelled fields are read one after the other, given enough fuel. -/
theorem fieldEntriesFrom_buffer {spellings : List Spelling}
    (admitted : ∀ spelling ∈ spellings,
      admits spelling.field.number spelling.field.wire = true) {fuel : Nat}
    (enough : (Spelling.buffer spellings).length ≤ fuel) (position depth : Nat) :
    ∃ entries : List FieldEntry, entries.map FieldEntry.field = spellings.map Spelling.field ∧
      fieldEntriesFrom admits fuel ⟨Spelling.buffer spellings, position, depth⟩ =
        entries.map .ok := by
  induction spellings generalizing fuel position with
  | nil =>
      refine ⟨[], rfl, ?_⟩
      cases fuel <;> simp [fieldEntriesFrom, Spelling.buffer]
  | cons spelling spellings ih =>
      rw [List.forall_mem_cons] at admitted
      have nonempty : 0 < spelling.bytes.length := List.length_pos_iff.mpr spelling.bytes_ne_nil
      rw [Spelling.buffer_cons, List.length_append] at enough
      obtain ⟨fuel, rfl⟩ := Nat.exists_eq_succ_of_ne_zero (by omega : fuel ≠ 0)
      have enoughLeft : (Spelling.buffer spellings).length ≤ fuel := by omega
      obtain ⟨entries, fields_eq, rest⟩ := ih admitted.2 enoughLeft
        (position + spelling.bytes.length)
      refine ⟨⟨position + spelling.tag.length, spelling.field⟩ :: entries, ?_, ?_⟩
      · rw [List.map_cons, List.map_cons, fields_eq]
      · rw [Spelling.buffer_cons, fieldEntriesFrom, if_neg (by simp [spelling.bytes_ne_nil]),
          Spelling.fieldEntry_bytes admitted.1]
        simp only [rest, List.map_cons]

/-- What is read to its end is made of spelled fields. -/
theorem exists_spellings_of_fieldEntriesFrom {entries : List FieldEntry} {fuel : Nat}
    {cursor : Cursor} (enough : cursor.rest.length ≤ fuel)
    (read : fieldEntriesFrom admits fuel cursor = entries.map .ok) :
    ∃ spellings, Spelling.buffer spellings = cursor.rest ∧
      spellings.map Spelling.field = entries.map FieldEntry.field ∧
      ∀ spelling ∈ spellings, admits spelling.field.number spelling.field.wire = true := by
  induction fuel generalizing cursor entries with
  | zero =>
      have empty : cursor.rest = [] := List.length_eq_zero_iff.mp (Nat.le_zero.mp enough)
      have none : entries = [] := List.map_eq_nil_iff.mp read.symm
      exact ⟨[], empty.symm, by rw [none]; rfl, fun _ mem => nomatch mem⟩
  | succ fuel ih =>
      rw [fieldEntriesFrom] at read
      split at read
      · rename_i empty
        have none : entries = [] := List.map_eq_nil_iff.mp read.symm
        exact ⟨[], (List.isEmpty_iff.mp empty).symm, by rw [none]; rfl, fun _ mem => nomatch mem⟩
      · split at read
        · rename_i first next found
          rcases List.map_eq_cons_iff.mp read.symm with ⟨entry, others, rfl, same, rest⟩
          cases same
          rcases Read.fieldEntry_eq_ok_iff.mp found with
            ⟨admitted, spelling, field_eq, _, passes⟩
          have nonempty : 0 < spelling.bytes.length :=
            List.length_pos_iff.mpr spelling.bytes_ne_nil
          have length_eq := congrArg List.length passes.rest_eq
          rw [List.length_append] at length_eq
          obtain ⟨spellings, buffer_eq, fields_eq, othersAdmitted⟩ :=
            ih (by omega : next.rest.length ≤ fuel) rest.symm
          refine ⟨spelling :: spellings, ?_, ?_, List.forall_mem_cons.mpr ⟨?_, othersAdmitted⟩⟩
          · rw [Spelling.buffer_cons, buffer_eq, passes.rest_eq]
          · rw [List.map_cons, List.map_cons, field_eq, fields_eq]
          · rwa [field_eq]
        · cases entries with
          | nil => cases read
          | cons entry entries => simp at read

/-- A buffer is read to its end exactly if it is made of spelled fields that are admitted. -/
theorem exists_fieldEntries_iff {bytes : List UInt8} {fields : List RawField} :
    (∃ entries : List FieldEntry, entries.map FieldEntry.field = fields ∧
      fieldEntries admits bytes = entries.map .ok) ↔
      (∃ spellings, Spelling.buffer spellings = bytes ∧ spellings.map Spelling.field = fields) ∧
        ∀ field ∈ fields, admits field.number field.wire = true := by
  constructor
  · rintro ⟨entries, rfl, read⟩
    obtain ⟨spellings, buffer_eq, fields_eq, admitted⟩ :=
      exists_spellings_of_fieldEntriesFrom (Nat.le_refl bytes.length) read
    refine ⟨⟨spellings, buffer_eq, fields_eq⟩, ?_⟩
    rw [← fields_eq]
    exact List.forall_mem_map.mpr admitted
  · rintro ⟨⟨spellings, rfl, rfl⟩, admitted⟩
    exact fieldEntriesFrom_buffer (List.forall_mem_map.mp admitted) (Nat.le_refl _) 0 0

/-- The buffer of a written message holds its fields by number. -/
theorem fieldEntries_encodeFields {fields : List RawField} (valid : ∀ field ∈ fields, field.Valid)
    (short : ∀ field ∈ fields, field.data.length < UInt64.size)
    (admitted : ∀ field ∈ fields, admits field.number field.wire = true) :
    ∃ entries : List FieldEntry, entries.map FieldEntry.field = sortFields fields ∧
      fieldEntries admits (encodeFields fields) = entries.map .ok := by
  rw [exists_fieldEntries_iff]
  constructor
  · apply Spelling.exists_buffer_eq_encode
    · exact fun field mem => valid field (mem_sortFields.mp mem)
    · exact fun field mem => short field (mem_sortFields.mp mem)
  · exact fun field mem => admitted field (mem_sortFields.mp mem)

theorem valid_of_mem_fieldEntriesFrom {fuel : Nat} {cursor : Cursor} {entry : FieldEntry}
    (mem : .ok entry ∈ fieldEntriesFrom admits fuel cursor) :
    entry.field.Valid ∧ admits entry.field.number entry.field.wire = true := by
  induction fuel generalizing cursor with
  | zero => cases mem
  | succ fuel ih =>
      rw [fieldEntriesFrom] at mem
      split at mem
      · cases mem
      · split at mem
        · rename_i first next read
          rcases List.mem_cons.mp mem with same | later
          · cases same
            obtain ⟨admitted, spelling, field_eq, _⟩ := Read.fieldEntry_eq_ok_iff.mp read
            rw [← field_eq]
            exact ⟨spelling.valid, by rwa [field_eq]⟩
          · exact ih later
        · simp at mem

/-- Reading with fewer fields admitted is the same reading, perhaps cut short. -/
theorem cutShort_fieldEntriesFrom {α : Type} {admitsFull : UInt32 → WireType → Bool}
    {action actionFull : FieldEntry → Except PayloadError α}
    (fewer : ∀ number wire, admits number wire = true → admitsFull number wire = true)
    (each : ∀ entry, CutShort (action entry) (actionFull entry)) (fuel : Nat) (cursor : Cursor) :
    CutShort ((fieldEntriesFrom admits fuel cursor).mapM fun entry => entry.bind action)
      ((fieldEntriesFrom admitsFull fuel cursor).mapM fun entry => entry.bind actionFull) := by
  induction fuel generalizing cursor with
  | zero => exact .refl _
  | succ fuel ih =>
      rw [fieldEntriesFrom, fieldEntriesFrom]
      split
      · exact .refl _
      · rcases Read.fieldEntry_eq_or_refused fewer cursor with same | ⟨offset, after, refused⟩
        · rw [same]
          cases Read.fieldEntry admitsFull cursor with
          | ok entry next =>
              simp only [List.mapM_cons]
              exact (each entry).bind fun value => (ih next).bind fun values => .refl _
          | error fault after => exact .refl _
        · rw [refused]
          exact .stopped offset

end

/-- A packed list is read back varint by varint. -/
theorem varintsFrom_flatten {groups : List (List UInt8)}
    (carries : ∀ group ∈ groups, WireType.varint.Carries group) {fuel : Nat}
    (enough : groups.flatten.length ≤ fuel) (position depth : Nat) :
    varintsFrom fuel ⟨groups.flatten, position, depth⟩ = .ok groups := by
  induction groups generalizing fuel position with
  | nil => cases fuel <;> simp [varintsFrom]
  | cons group groups ih =>
      simp only [List.forall_mem_cons] at carries
      have nonempty : group ≠ [] := by
        rintro rfl
        exact carries.1.1.elim
      have positive : 0 < group.length := List.length_pos_iff.mpr nonempty
      simp only [List.flatten_cons, List.length_append] at enough
      obtain ⟨fuel, rfl⟩ := Nat.exists_eq_succ_of_ne_zero (by omega : fuel ≠ 0)
      have read := Read.reads_groups carries.1 groups.flatten position depth
      have enoughLeft : groups.flatten.length ≤ fuel := by omega
      rw [List.flatten_cons, varintsFrom, if_neg (by simp [nonempty]), read]
      simp only [ih carries.2 enoughLeft]
      rfl

theorem flatten_of_varintsFrom {groups : List (List UInt8)} {fuel : Nat} {cursor : Cursor}
    (enough : cursor.rest.length ≤ fuel) (read : varintsFrom fuel cursor = .ok groups) :
    cursor.rest = groups.flatten ∧ ∀ group ∈ groups, WireType.varint.Carries group := by
  induction fuel generalizing cursor groups with
  | zero =>
      cases read
      exact ⟨List.length_eq_zero_iff.mp (Nat.le_zero.mp enough), fun _ mem => nomatch mem⟩
  | succ fuel ih =>
      rw [varintsFrom] at read
      split at read
      · rename_i empty
        cases read
        exact ⟨List.isEmpty_iff.mp empty, fun _ mem => nomatch mem⟩
      · split at read
        · rename_i group next found
          rcases map_eq_ok_iff.mp read with ⟨groups, others, rfl⟩
          obtain ⟨carries, passes⟩ := Read.groups_eq_ok_iff.mp found
          have positive : 0 < group.length := by
            refine List.length_pos_iff.mpr ?_
            rintro rfl
            exact carries.1.elim
          have length_eq := congrArg List.length passes.rest_eq
          rw [List.length_append] at length_eq
          obtain ⟨rest_eq, othersCarry⟩ := ih (by omega) others
          refine ⟨?_, List.forall_mem_cons.mpr ⟨carries, othersCarry⟩⟩
          rw [passes.rest_eq, rest_eq, List.flatten_cons]
        · cases read

/-- A packed list is read exactly if it is made of varints. -/
theorem varints_eq_ok_iff {data : List UInt8} {groups : List (List UInt8)} :
    varints data = .ok groups ↔
      data = groups.flatten ∧ ∀ group ∈ groups, WireType.varint.Carries group := by
  constructor
  · intro read
    exact @flatten_of_varintsFrom groups data.length (.ofBytes data) (Nat.le_refl _) read
  · rintro ⟨rfl, carries⟩
    exact varintsFrom_flatten carries (Nat.le_refl _) 0 0

end KotlinMetadata.Wire
