import KotlinMetadata.Proofs.Tree.Depth
import KotlinMetadata.Proofs.Wire.Scalar

/-!
# Trees from their bytes

A well-formed tree is read back from what is written for it, as far as the
names are looked up under the numbers that they were given and the messages
are not nested more deeply than the decoder may go.  What comes back differs
from the tree in the order of unknown fields only.
-/

namespace KotlinMetadata.Tree

open Wire

/-- Every name of a tree is found under the number that it is written as. -/
def Resolves (lookup : NameLookup) (index : TableName → Int32) {part : Part} (tree : Tree part) :
    Prop :=
  ∀ name ∈ tree.names, lookup name.1 (index (name.1.tableName name.2)) = .ok name.2

section

variable {lookup : NameLookup} {index : TableName → Int32}

private theorem decodeLeaf_toUTF8 (offset : Nat) (text : String) :
    decodeLeaf lookup offset text.toUTF8.toList .text = .ok text := by
  rw [decodeLeaf, fromUTF8?_toUTF8]

/-- A single value is read back. -/
theorem decodeLeaf_encodeLeaf (offset : Nat) : ∀ (scalar : Leaf) (value : scalar.Value),
    Resolves lookup index (leaf scalar value) →
      decodeLeaf lookup offset (encodeLeaf index scalar value) scalar = .ok value
  | .int32, value, _ => congrArg Except.ok
      ((congrArg int32OfWord (decodeVarint_encodeVarint _)).trans (int32OfWord_wordOfInt32 value))
  | .bool, value, _ => congrArg Except.ok
      ((congrArg boolOfWord (decodeVarint_encodeVarint _)).trans (boolOfWord_wordOfBool value))
  | .sint64, value, _ => congrArg Except.ok
      ((congrArg unzigzag (decodeVarint_encodeVarint _)).trans (unzigzag_zigzag value))
  | .float, bits, _ => congrArg Except.ok (ofNat_ofLittleEndian_four bits)
  | .double, bits, _ => congrArg Except.ok (ofNat_ofLittleEndian_eight bits)
  | .text, text, _ => decodeLeaf_toUTF8 offset text
  | .name role, text, resolves => by
      rw [decodeLeaf, encodeLeaf, decodeVarint_encodeVarint, int32OfWord_wordOfInt32]
      exact resolves (role, text) List.mem_cons_self

theorem Resolves.of_slot {arity : Arity} {type : ValueType} {slot : Tree (.slot arity type)}
    (resolves : Resolves lookup index slot) {value : Tree (.value type)}
    (mem : value ∈ slot.held) : Resolves lookup index value := by
  intro name nameMem
  apply resolves name
  rw [names_slot]
  exact List.mem_flatMap.mpr ⟨value, mem, nameMem⟩

theorem Resolves.of_cons {field : Field} {fields : List Field}
    {slot : Tree (.slot field.arity field.type)} {rest : Tree (.fields fields)}
    (resolves : Resolves lookup index (cons slot rest)) :
    Resolves lookup index slot ∧ Resolves lookup index rest :=
  ⟨fun name mem => resolves name (List.mem_append_left _ mem),
    fun name mem => resolves name (List.mem_append_right _ mem)⟩

end

section

variable {lookup : NameLookup}
  {inner : (kind : Kind) → List UInt8 → Except PayloadError (Message kind)} {field : Field}

/-- The values of a packed list are found in its one field. -/
theorem decodeEntry_of_packed (sound : field.Sound) (packed : field.arity = .repeated true)
    {payloads : List (List UInt8)} {values : List (Tree (.value field.type))}
    (carries : ∀ payload ∈ payloads, field.type.wire.Carries payload) {entry : FieldEntry}
    (entry_eq : entry.field = .bytes field.number payloads.flatten)
    (decoded : List.Forall₂ (fun payload value =>
      decodeValue lookup inner entry.offset payload field.type = .ok value) payloads values) :
    decodeEntry lookup inner field entry = .ok values := by
  have varint : field.type.wire = .varint := sound.2 packed
  have found : field.payloads entry.field = .ok payloads := by
    rw [varint] at carries
    simp [Field.payloads, Field.packable, packed, varint, entry_eq, RawField.bytes,
      varints_eq_ok_iff.mpr ⟨rfl, carries⟩]
  rw [decodeEntry_eq_bind, found]
  exact mapM_eq_ok_iff.mpr decoded

/-- A value is found in the field that was written for it alone. -/
theorem decodeEntry_of_single {payload : List UInt8} {value : Tree (.value field.type)}
    {entry : FieldEntry}
    (entry_eq : entry.field = { number := field.number, wire := field.type.wire, data := payload })
    (decoded : decodeValue lookup inner entry.offset payload field.type = .ok value) :
    decodeEntry lookup inner field entry = .ok [value] := by
  have found : field.payloads entry.field = .ok [payload] := by
    rw [entry_eq, Field.payloads, if_neg]
    simp only [Bool.and_eq_true, decide_eq_true_eq, not_and]
    intro packable len
    rw [Field.packable] at packable
    split at packable
    · simp [len] at packable
    · cases packable
  rw [decodeEntry_eq_bind, found]
  exact mapM_eq_ok_iff.mpr (.cons decoded .nil)

/-- The values of a field are found in what is written for them. -/
theorem mapM_decodeEntry_rawFields (sound : field.Sound) {payloads : List (List UInt8)}
    {values : List (Tree (.value field.type))}
    (carries : ∀ payload ∈ payloads, field.type.wire.Carries payload)
    (decoded : List.Forall₂ (fun payload value => ∀ offset,
      decodeValue lookup inner offset payload field.type = .ok value) payloads values)
    {entries : List FieldEntry}
    (entries_eq : entries.map FieldEntry.field = field.rawFields payloads) :
    ∃ lists, entries.mapM (decodeEntry lookup inner field) = .ok lists ∧
      lists.flatten = values := by
  simp only [mapM_eq_ok_iff]
  rw [Field.rawFields] at entries_eq
  split at entries_eq
  · rename_i packed
    split at entries_eq
    · rename_i none
      rw [List.isEmpty_iff.mp none] at decoded
      cases decoded
      rw [List.map_eq_nil_iff.mp entries_eq]
      exact ⟨[], .nil, rfl⟩
    · rcases List.map_eq_singleton_iff.mp entries_eq with ⟨entry, rfl, entry_eq⟩
      have read := decodeEntry_of_packed sound packed carries entry_eq
        (decoded.imp fun _ _ each => each entry.offset)
      exact ⟨[values], .cons read .nil, by simp⟩
  · induction decoded generalizing entries with
    | nil =>
        rw [List.map_eq_nil_iff.mp entries_eq]
        exact ⟨[], .nil, rfl⟩
    | @cons payload value payloads values head _ ih =>
        rcases List.map_eq_cons_iff.mp entries_eq with ⟨entry, entries, rfl, entry_eq, rest_eq⟩
        rcases ih (List.forall_mem_cons.mp carries).2 rest_eq with ⟨lists, rest, rfl⟩
        exact ⟨[value] :: lists, .cons (decodeEntry_of_single entry_eq (head _)) rest, rfl⟩

end

/-! ## Messages -/

/-- Whether none of the fields of a schema takes a field of a buffer. -/
def leftOver (fields : List Field) (raw : RawField) : Bool :=
  fields.all fun field => !field.takes raw

/-- A buffer holds what was written for some fields if each of them takes the same from both. -/
def HoldsWritten (fields : List Field) (entries : List FieldEntry) (written : List RawField) :
    Prop :=
  ∀ field ∈ fields, (entries.map FieldEntry.field).filter field.takes = written.filter field.takes

section

variable {index : TableName → Int32} {field : Field} {fields : List Field}

theorem map_filter_takes (field : Field) (entries : List FieldEntry) :
    (entries.filter fun entry => field.takes entry.field).map FieldEntry.field =
      (entries.map FieldEntry.field).filter field.takes := by
  rw [List.filter_map]
  rfl

/-- The first field takes what was written for it. -/
theorem filter_takes_write_cons (sound : SoundFields (field :: fields))
    (slot : Tree (.slot field.arity field.type)) (rest : Tree (.fields fields)) :
    ((cons slot rest).write index).filter field.takes = field.rawFields (slot.write index) := by
  change (field.rawFields (slot.write index) ++ rest.write index).filter field.takes = _
  have first : (field.rawFields (slot.write index)).filter field.takes =
      field.rawFields (slot.write index) :=
    List.filter_eq_self.mpr fun raw mem =>
      Field.takes_of_mem_rawFields (sound.sound field List.mem_cons_self) mem
  have later : (rest.write index).filter field.takes = [] := by
    apply List.filter_eq_nil_iff.mpr
    intro raw mem
    obtain ⟨other, otherMem, taken, _⟩ := exists_takes_of_mem_write sound.tail mem
    simp [sound.not_takes otherMem taken]
  rw [List.filter_append, first, later, List.append_nil]

/-- The other fields take nothing of it. -/
theorem filter_takes_write_cons_of_mem (sound : SoundFields (field :: fields)) {other : Field}
    (mem : other ∈ fields) (slot : Tree (.slot field.arity field.type))
    (rest : Tree (.fields fields)) :
    ((cons slot rest).write index).filter other.takes = (rest.write index).filter other.takes := by
  change (field.rawFields (slot.write index) ++ rest.write index).filter other.takes = _
  have first : (field.rawFields (slot.write index)).filter other.takes = [] := by
    apply List.filter_eq_nil_iff.mpr
    intro raw rawMem taken
    have mine := Field.takes_of_mem_rawFields (sound.sound field List.mem_cons_self) rawMem
    rw [sound.not_takes mem taken] at mine
    cases mine
  rw [List.filter_append, first, List.nil_append]

/-- What the first field leaves holds all that the others take. -/
theorem filter_takes_of_mem_tail (sound : SoundFields (field :: fields)) {other : Field}
    (mem : other ∈ fields) (entries : List FieldEntry) :
    ((entries.filter fun entry => !field.takes entry.field).filter
        fun entry => other.takes entry.field) =
      entries.filter fun entry => other.takes entry.field := by
  rw [List.filter_filter]
  apply List.filter_congr
  intro entry _
  cases taken : other.takes entry.field with
  | false => rfl
  | true => rw [sound.not_takes mem taken]; rfl

/-- What the first field leaves holds what was written for the others. -/
theorem HoldsWritten.tail (sound : SoundFields (field :: fields))
    {slot : Tree (.slot field.arity field.type)} {rest : Tree (.fields fields)}
    {entries : List FieldEntry}
    (holds : HoldsWritten (field :: fields) entries ((cons slot rest).write index)) :
    HoldsWritten fields (entries.filter fun entry => !field.takes entry.field)
      (rest.write index) := by
  intro other mem
  rw [← filter_takes_write_cons_of_mem sound mem slot rest,
    ← holds other (List.mem_cons_of_mem field mem), ← map_filter_takes, ← map_filter_takes,
    filter_takes_of_mem_tail sound mem]

theorem filter_leftOver_nil (raws : List RawField) : raws.filter (leftOver []) = raws :=
  List.filter_eq_self.mpr fun _ _ => rfl

theorem filter_leftOver_cons (entries : List FieldEntry) :
    (entries.map FieldEntry.field).filter (leftOver (field :: fields)) =
      ((entries.filter fun entry => !field.takes entry.field).map FieldEntry.field).filter
        (leftOver fields) := by
  rw [List.filter_map, List.filter_map, List.filter_filter]
  congr 1
  apply List.filter_congr
  intro entry _
  simp only [Function.comp_apply, leftOver, List.all_cons]
  exact Bool.and_comm _ _

end

section

variable (lookup : NameLookup) (index : TableName → Int32)

/-- A value is read back at any offset by a decoder that may go as deep as the value is. -/
def ValueReadsBack {type : ValueType} (value : Tree (.value type)) : Prop :=
  ∀ levels offset, value.WellFormed → Resolves lookup index value → value.height ≤ levels →
    (value.write index : List UInt8).length < UInt64.size →
    decodeValue lookup (decodeInner lookup levels) offset (value.write index) type =
      .ok value.sortUnknown

/-- The fields of a message are found in every buffer that holds what was written for them. -/
def FieldsReadBack {fields : List Field} (tree : Tree (.fields fields)) : Prop :=
  ∀ levels entries, SoundFields fields → tree.WellFormed → Resolves lookup index tree →
    tree.height ≤ levels → (∀ raw ∈ tree.write index, raw.data.length < UInt64.size) →
    HoldsWritten fields entries (tree.write index) →
    Gathers lookup (decodeInner lookup levels) fields entries tree.sortUnknown
      ((entries.map FieldEntry.field).filter (leftOver fields))

end

section

variable {lookup : NameLookup} {index : TableName → Int32}

/-- Every field of the buffer of a message that may not have messages inside is admitted if there
are none. -/
theorem admitsAt_of_mem {kind : Kind} {fields : Tree (.fields kind.fields)}
    {unknown : List RawField} {levels : Nat}
    (notKnown : ∀ raw ∈ unknown, kind.field? raw.number raw.wire = none)
    (height_le : fields.height ≤ levels) {raw : RawField}
    (mem : raw ∈ fields.write index ++ unknown) :
    admitsAt levels kind raw.number raw.wire = true := by
  cases levels with
  | succ levels => rfl
  | zero =>
      rcases List.mem_append.mp mem with known | other
      · obtain ⟨field, fieldMem, taken, _, higher⟩ :=
          exists_takes_of_mem_write kind.soundFields known
        have flat : ¬ field.type.isMessage = true := by
          intro isMessage
          exact absurd height_le (Nat.not_le.mpr (higher isMessage))
        simp [admitsAt, Kind.nests, Kind.field?_of_takes fieldMem taken, flat]
      · simp [admitsAt, Kind.nests, notKnown raw other]

/-- A message is read back if its fields are. -/
theorem decode_write_of_fieldsReadBack {kind : Kind} {fields : Tree (.fields kind.fields)}
    {unknown : List RawField} (readsBack : FieldsReadBack lookup index fields) {levels : Nat}
    (wellFormed : (message fields unknown).WellFormed)
    (resolves : Resolves lookup index (message fields unknown))
    (height_le : fields.height ≤ levels)
    (short : (encodeFields (fields.write index ++ unknown)).length < UInt64.size) :
    decode lookup levels kind (encodeFields (fields.write index ++ unknown)) =
      .ok (message fields unknown).sortUnknown := by
  have sound := kind.soundFields
  have valid : ∀ raw ∈ fields.write index ++ unknown, raw.Valid := by
    intro raw mem
    rcases List.mem_append.mp mem with known | other
    · obtain ⟨_, _, _, valid, _⟩ := exists_takes_of_mem_write sound known
      exact valid
    · exact (wellFormed.2 raw other).1
  have lengths : ∀ raw ∈ fields.write index ++ unknown, raw.data.length < UInt64.size :=
    fun raw mem => Nat.lt_of_le_of_lt (length_data_le_of_mem mem) short
  obtain ⟨entries, fields_eq, entries_eq⟩ := fieldEntries_encodeFields valid lengths
    fun raw mem => admitsAt_of_mem (fun raw mem => (wellFormed.2 raw mem).2) height_le mem
  have untouched : ∀ raw ∈ unknown, ∀ field ∈ kind.fields, field.takes raw = false :=
    fun raw mem => Kind.field?_eq_none_iff.mp (wellFormed.2 raw mem).2
  have holds : HoldsWritten kind.fields entries (fields.write index) := by
    intro field mem
    have none : unknown.filter field.takes = [] :=
      List.filter_eq_nil_iff.mpr fun raw rawMem => by simp [untouched raw rawMem field mem]
    rw [fields_eq, filter_sortFields_of_number (fun _ => Field.number_of_takes),
      List.filter_append, none, List.append_nil]
  have rest : (entries.map FieldEntry.field).filter (leftOver kind.fields) =
      sortFields unknown := by
    have none : (fields.write index).filter (leftOver kind.fields) = [] := by
      apply List.filter_eq_nil_iff.mpr
      intro raw mem left
      obtain ⟨field, fieldMem, taken, _⟩ := exists_takes_of_mem_write sound mem
      have refused := List.all_eq_true.mp left field fieldMem
      simp [taken] at refused
    have all : unknown.filter (leftOver kind.fields) = unknown :=
      List.filter_eq_self.mpr fun raw mem =>
        List.all_eq_true.mpr fun field fieldMem => by simp [untouched raw mem field fieldMem]
    rw [fields_eq, filter_sortFields, List.filter_append, none, all, List.nil_append]
  have gathers := readsBack levels entries sound wellFormed.1 resolves height_le
    (fun raw mem => lengths raw (List.mem_append_left unknown mem)) holds
  rw [rest] at gathers
  rw [decode_eq_decodeMessage, decodeMessage_eq_ok_iff]
  exact ⟨entries, fields.sortUnknown, sortFields unknown, entries_eq, gathers, rfl⟩

/-- The first field is found if its values are read back, the others if they are. -/
theorem fieldsReadBack_cons {field : Field} {fields : List Field}
    {slot : Tree (.slot field.arity field.type)} {rest : Tree (.fields fields)}
    (values : ∀ value ∈ slot.held, ValueReadsBack lookup index value)
    (others : FieldsReadBack lookup index rest) :
    FieldsReadBack lookup index (cons slot rest) := by
  intro levels entries sound wellFormed resolves height_le short holds
  rcases Nat.max_le.mp height_le with ⟨slotHeight, restHeight⟩
  rcases resolves.of_cons with ⟨slotResolves, restResolves⟩
  have decoded : List.Forall₂ (fun payload value => ∀ offset,
      decodeValue lookup (decodeInner lookup levels) offset payload field.type = .ok value)
      (slot.write index) (slot.held.map sortUnknown) := by
    rw [write_slot, List.forall₂_map_left_iff, List.forall₂_map_right_iff, List.forall₂_same]
    intro value mem offset
    refine values value mem levels offset (wellFormed_slot_iff.mp wellFormed.1 value mem)
      (slotResolves.of_slot mem) (height_slot_le_iff.mp slotHeight value mem) ?_
    have payloadMem : (value.write index : List UInt8) ∈ slot.write index := by
      rw [write_slot]
      exact List.mem_map_of_mem mem
    obtain ⟨raw, rawMem, le⟩ := Field.exists_length_le_of_mem_payloads field payloadMem
    exact Nat.lt_of_le_of_lt le (short raw (List.mem_append_left _ rawMem))
  have taken : (entries.filter fun entry => field.takes entry.field).map FieldEntry.field =
      field.rawFields (slot.write index) := by
    rw [← filter_takes_write_cons sound slot rest, ← holds field List.mem_cons_self,
      map_filter_takes]
  obtain ⟨lists, listsDecoded, flat⟩ := mapM_decodeEntry_rawFields
    (sound.sound field List.mem_cons_self) (fun _ => carries_of_mem_write_slot) decoded taken
  have filled : fill field.arity lists.flatten = .ok slot.sortUnknown := by
    rw [flat, ← held_sortUnknown]
    exact fill_held _
  rw [filter_leftOver_cons]
  exact .cons listsDecoded filled (others levels _ sound.tail wellFormed.2 restResolves restHeight
    (fun raw mem => short raw (List.mem_append_right _ mem)) (holds.tail sound))

/-- Every value is read back. -/
theorem valueReadsBack {type : ValueType} (value : Tree (.value type)) :
    ValueReadsBack lookup index value := by
  refine (value_and_fields_induction (ValueReadsBack lookup index) (FieldsReadBack lookup index)
    ?leaf ?message ?nil ?cons).1 value
  case leaf =>
    intro scalar value levels offset _ resolves _ _
    exact map_eq_ok_iff.mpr ⟨value, decodeLeaf_encodeLeaf offset scalar value resolves, rfl⟩
  case message =>
    intro kind fields unknown readsBack levels offset wellFormed resolves height_le short
    obtain ⟨levels, rfl⟩ := Nat.exists_eq_succ_of_ne_zero
      (Nat.ne_of_gt (Nat.lt_of_lt_of_le (Nat.succ_pos fields.height) height_le))
    exact decode_write_of_fieldsReadBack readsBack wellFormed resolves
      (Nat.le_of_succ_le_succ height_le) short
  case nil =>
    intro levels entries _ _ _ _ _ _
    rw [filter_leftOver_nil]
    exact .nil entries
  case cons => exact fun slot rest values others => fieldsReadBack_cons values others

/-- A well-formed message is read back from its bytes, its unknown fields by number. -/
theorem decode_encode {kind : Kind} {body : Message kind} {levels : Nat}
    (wellFormed : body.WellFormed) (resolves : Resolves lookup index body)
    (height_le : body.height ≤ levels + 1) (short : (body.encode index).length < UInt64.size) :
    decode lookup levels kind (body.encode index) = .ok body.sortUnknown :=
  valueReadsBack body (levels + 1) 0 wellFormed resolves height_le short

/-- A well-formed message that is nested too deeply is not read back. -/
theorem decode_encode_of_height {kind : Kind} {body : Message kind} {levels : Nat}
    (wellFormed : body.WellFormed) (resolves : Resolves lookup index body)
    (tooHigh : levels + 1 < body.height) (short : (body.encode index).length < UInt64.size) :
    ∃ offset, decode lookup levels kind (body.encode index) =
      .error (.nestedTooDeep nestingLimit offset) := by
  have full : decode lookup body.height kind (body.encode index) = .ok body.sortUnknown :=
    decode_encode wellFormed resolves (Nat.le_succ _) short
  exact nestedTooDeep_of_height (Nat.le_of_lt (Nat.lt_of_succ_lt tooHigh)) full
    (by rwa [height_sortUnknown])

end

end KotlinMetadata.Tree
