import KotlinMetadata.Proofs.Wire.Buffer

/-!
# Fields that survive

A buffer can be read field by field without knowing what its fields mean.
Writing the fields again keeps each of them byte for byte and puts them in
order by number, and where they are in order already and nothing is spelled
longer than it needs to be, the buffer itself comes back.
-/

namespace KotlinMetadata.Wire

/-- The fields of a buffer are those that it is made of. -/
theorem rawFields_eq_ok_iff {bytes : List UInt8} {fields : List RawField} :
    rawFields bytes = .ok fields ↔
      ∃ spellings, Spelling.buffer spellings = bytes ∧
        spellings.map Spelling.field = fields := by
  rw [rawFields, mapM_bind_eq_ok_iff]
  constructor
  · rintro ⟨entries, read, same⟩
    have fields_eq : entries.map FieldEntry.field = fields :=
      Except.ok.inj (List.mapM_pure.symm.trans same)
    exact (exists_fieldEntries_iff.mp ⟨entries, fields_eq, read⟩).1
  · intro spelled
    obtain ⟨entries, rfl, read⟩ :=
      (@exists_fieldEntries_iff (fun _ _ => true) bytes fields).mpr ⟨spelled, fun _ _ => rfl⟩
    exact ⟨entries, read, List.mapM_pure⟩

/-- Written fields are read back by number. -/
theorem rawFields_encodeFields {fields : List RawField} (valid : ∀ field ∈ fields, field.Valid)
    (short : ∀ field ∈ fields, field.data.length < UInt64.size) :
    rawFields (encodeFields fields) = .ok (sortFields fields) := by
  refine rawFields_eq_ok_iff.mpr (Spelling.exists_buffer_eq_encode ?_ ?_)
  · exact fun field mem => valid field (mem_sortFields.mp mem)
  · exact fun field mem => short field (mem_sortFields.mp mem)

/-- Fields in order that are spelled no longer than they need to be are written as they stand. -/
theorem encodeFields_of_shortest {spellings : List Spelling}
    (ascending : Ascending (spellings.map Spelling.field))
    (shortest : ∀ spelling ∈ spellings, spelling.IsShortest) :
    encodeFields (spellings.map Spelling.field) = Spelling.buffer spellings := by
  rw [encodeFields, sortFields_of_ascending ascending, List.flatMap_map]
  refine List.flatMap_congr fun spelling mem => ?_
  exact (Spelling.bytes_eq_encode (shortest spelling mem)).symm

/-- Fields survive being written and read: they come back byte for byte and by number, those of one
number in their old order.  So do the fields of any buffer that can be read, and the buffer itself
is what is written if its fields are in order and none is spelled longer than it needs to be. -/
theorem fields_survive :
    (∀ fields : List RawField,
      (∀ field ∈ fields, field.Valid ∧ field.data.length < UInt64.size) →
        ∃ sorted, StablySorted fields sorted ∧ rawFields (encodeFields fields) = .ok sorted) ∧
    ∀ bytes fields, rawFields bytes = .ok fields →
      (∃ sorted, StablySorted fields sorted ∧ rawFields (encodeFields fields) = .ok sorted) ∧
      ∃ spellings, (∀ others, Spelling.buffer others = bytes ↔ others = spellings) ∧
        spellings.map Spelling.field = fields ∧
        (Ascending fields → (∀ spelling ∈ spellings, spelling.IsShortest) →
          encodeFields fields = bytes) := by
  have written : ∀ fields : List RawField,
      (∀ field ∈ fields, field.Valid ∧ field.data.length < UInt64.size) →
        ∃ sorted, StablySorted fields sorted ∧ rawFields (encodeFields fields) = .ok sorted := by
    intro fields valid
    exact ⟨sortFields fields, stablySorted_iff.mpr rfl, rawFields_encodeFields
      (fun field mem => (valid field mem).1) fun field mem => (valid field mem).2⟩
  refine ⟨written, fun bytes fields read => ?_⟩
  rcases rawFields_eq_ok_iff.mp read with ⟨spellings, rfl, rfl⟩
  constructor
  · exact written _ (List.forall_mem_map.mpr fun spelling _ =>
      ⟨spelling.valid, spelling.length_data_lt⟩)
  · refine ⟨spellings, fun others => ⟨Spelling.buffer_injective, congrArg _⟩, rfl, ?_⟩
    exact encodeFields_of_shortest

/-- Fields out of order, one of them with a varint that is longer than it needs to be, and two of
one number. -/
def unorderedSample : List RawField :=
  [.bytes 300 [1, 2], ⟨5, .varint, [0x81, 0]⟩, ⟨300, .fixed32, [1, 2, 3, 4]⟩]

/-- The payload of a varint keeps its length, while tags and lengths are as short as they can be. -/
theorem fields_survive_sample :
    let sorted : List RawField :=
      [⟨5, .varint, [0x81, 0]⟩, .bytes 300 [1, 2], ⟨300, .fixed32, [1, 2, 3, 4]⟩]
    let bytes := [0x28, 0x81, 0, 0xE2, 0x12, 2, 1, 2, 0xE5, 0x12, 1, 2, 3, 4]
    rawFields (encodeFields unorderedSample) = .ok sorted ∧ rawFields bytes = .ok sorted ∧
      encodeFields sorted = bytes := by
  intro sorted bytes
  obtain ⟨written, again⟩ := fields_survive
  obtain ⟨_, stable, readBack⟩ := written unorderedSample (by decide)
  have sorted_eq : sortFields unorderedSample = sorted := by
    simp [sortFields, unorderedSample, RawField.bytes, List.mergeSort, sorted]
  rw [stablySorted_iff.mp stable, sorted_eq] at readBack
  have read : rawFields bytes = .ok sorted := by decide
  obtain ⟨_, spellings, unique, _, kept⟩ := again bytes sorted read
  have spelled : Spelling.buffer
      [ .ofField ⟨5, .varint, [0x81, 0]⟩ (by decide) (by decide)
      , .ofField (.bytes 300 [1, 2]) (by decide) (by decide)
      , .ofField ⟨300, .fixed32, [1, 2, 3, 4]⟩ (by decide) (by decide) ] = bytes := by decide
  obtain rfl := (unique _).mp spelled
  refine ⟨readBack, read, kept (by decide) ?_⟩
  simp only [List.forall_mem_cons, Spelling.isShortest_ofField, true_and]
  exact fun _ mem => absurd mem List.not_mem_nil

end KotlinMetadata.Wire
