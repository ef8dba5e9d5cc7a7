import KotlinMetadata.Proofs.Wire.Buffer
import KotlinMetadata.Proofs.Wire.Scalar

/-!
# Scalars are read back

A written word is read back wherever it stands, and nothing shorter is read as
it.  A scalar that is written as a field is read back by its tag and by the
action for its kind; a list of integers is read back by one action, whether it
is written as one field or as many.
-/

namespace KotlinMetadata.Wire

/-! ## Words -/

/-- Groups hold seven bits each. -/
theorem groupsValue_lt (groups : List UInt8) :
    groupsValue groups < Nat.pow 128 groups.length := by
  induction groups with
  | nil => exact Nat.one_pos
  | cons b groups ih =>
      have low : b.toNat % 128 < 128 := Nat.mod_lt _ (by decide)
      rw [groupsValue, List.length_cons]
      change _ < Nat.pow 128 groups.length * 128
      omega

/-- Nothing shorter than the varint of a word is read as the word, although a reader drops the bits
that a word has no room for. -/
theorem length_encodeVarint_decodeVarint_le {groups : List UInt8} (shape : IsVarint groups) :
    (encodeVarint (decodeVarint groups)).length ≤ groups.length := by
  by_cases fits : groupsValue groups < UInt64.size
  · have value_eq : (decodeVarint groups).toNat = groupsValue groups := by
      rw [decodeVarint, UInt64.toNat_ofNat', Nat.mod_eq_of_lt]
      exact fits
    rw [encodeVarint, value_eq]
    exact length_varintGroups_le_of_groupsValue 9 shape
  · -- Nine groups hold 63 bits, so what does not fit into a word takes at least ten.
    refine Nat.le_trans (length_encodeVarint_le _) ?_
    by_contra short
    have small : Nat.pow 128 groups.length ≤ Nat.pow 128 9 :=
      Nat.pow_le_pow_right (by decide) (by omega)
    have bound : groupsValue groups < UInt64.size :=
      Nat.lt_of_lt_of_le (groupsValue_lt groups) (Nat.le_trans small (by decide))
    exact fits bound

theorem Read.reads_varint (word : UInt64) : Reads varint (encodeVarint word) word := by
  have reads := reads_varint_of_carries (carries_encodeVarint word)
  rwa [decodeVarint_encodeVarint] at reads

/-- No read of a word passes fewer bytes than are written for it. -/
theorem Read.length_encodeVarint_le_of_varint {cursor after : Cursor} {word : UInt64}
    (read : varint cursor = .ok word after) :
    cursor.position + (encodeVarint word).length ≤ after.position := by
  rcases varint_eq_ok_iff.mp read with ⟨groups, carries, rfl, passes⟩
  rw [passes.position_eq]
  exact Nat.add_le_add_left (length_encodeVarint_decodeVarint_le carries.1) _

/-! ## Fields of one scalar -/

section

variable {α : Type} {action : WireType → Read α}

/-- A field is read back if what stands behind its tag is. -/
theorem RawField.reads_encode {field : RawField} {value : α} (nonzero : field.number ≠ 0)
    (behind : Reads (action field.wire)
      ((if field.wire = .len then encodeVarint (UInt64.ofNat field.data.length) else []) ++
        field.data) value) :
    Reads (Read.tagged action) field.encode (field.number, field.wire, value) := by
  rw [RawField.encode, List.append_assoc]
  exact (Read.reads_tag (spellsTag_tagWord field.number field.wire) nonzero).bind
    (behind.map fun value => (field.number, field.wire, value))

theorem RawField.encode_ne_nil (field : RawField) : field.encode ≠ [] := by
  have nonempty := (isVarint_encodeVarint (tagWord field.number field.wire)).length_pos
  intro empty
  have length_eq := congrArg List.length empty
  simp only [RawField.encode, List.length_append, List.length_nil] at length_eq
  omega

/-- A single field is written as it is. -/
theorem encodeFields_singleton (field : RawField) : encodeFields [field] = field.encode := by
  rw [encodeFields, sortFields_of_ascending (List.pairwise_singleton _ _), List.flatMap_singleton]

theorem reads_encodeFields_singleton {field : RawField} {value : α} (nonzero : field.number ≠ 0)
    (scalar : field.wire ≠ .len) (reads : Reads (action field.wire) field.data value) :
    Reads (Read.tagged action) (encodeFields [field]) (field.number, field.wire, value) := by
  rw [encodeFields_singleton]
  refine RawField.reads_encode nonzero ?_
  rwa [if_neg scalar, List.nil_append]

end

namespace Read

theorem reads_int32 (value : Int32) : Reads int32 (encodeVarint (wordOfInt32 value)) value := by
  have reads := (reads_varint (wordOfInt32 value)).map int32OfWord
  rwa [int32OfWord_wordOfInt32] at reads

theorem reads_bool (value : Bool) : Reads bool (encodeVarint (wordOfBool value)) value := by
  have reads := (reads_varint (wordOfBool value)).map boolOfWord
  rwa [boolOfWord_wordOfBool] at reads

theorem reads_sint64 (value : Int64) : Reads sint64 (encodeVarint (zigzag value)) value := by
  have reads := (reads_varint (zigzag value)).map unzigzag
  rwa [unzigzag_zigzag] at reads

theorem reads_float (bits : UInt32) : Reads float (littleEndian 4 bits.toNat) bits := by
  have reads := (reads_take (length_littleEndian 4 bits.toNat)).map
    fun data => UInt32.ofNat (ofLittleEndian data)
  rwa [ofNat_ofLittleEndian_four] at reads

theorem reads_double (bits : UInt64) : Reads double (littleEndian 8 bits.toNat) bits := by
  have reads := (reads_take (length_littleEndian 8 bits.toNat)).map
    fun data => UInt64.ofNat (ofLittleEndian data)
  rwa [ofNat_ofLittleEndian_eight] at reads

end Read

/-! ## Lists of integers -/

/-- `action` is carried out as long as any byte is left, and finds `values` until none is. -/
inductive ReadsAll {α : Type} (action : Read α) : Cursor → List α → Prop
  | done {cursor : Cursor} : cursor.hasMore = false → ReadsAll action cursor []
  | again {cursor next : Cursor} {value : α} {values : List α} :
      cursor.hasMore = true → action cursor = .ok value next → ReadsAll action next values →
      ReadsAll action cursor (value :: values)

/-- Bytes that are read one piece after the other. -/
theorem readsAll_flatMap {α β : Type} {action : Read α} {bytes : β → List UInt8} {value : β → α}
    {items : List β} (reads : ∀ item ∈ items, Reads action (bytes item) (value item))
    (nonempty : ∀ item ∈ items, bytes item ≠ []) (position depth : Nat) :
    ReadsAll action ⟨items.flatMap bytes, position, depth⟩ (items.map value) := by
  induction items generalizing position with
  | nil => exact .done rfl
  | cons item items ih =>
      rw [List.forall_mem_cons] at reads nonempty
      refine .again ?_ (reads.1 (items.flatMap bytes) position depth) (ih reads.2 nonempty.2 _)
      simp [Cursor.hasMore, nonempty.1]

/-- Fields of ascending numbers are read back one after the other. -/
theorem readsAll_encodeFields {α β : Type} {action : Read α} {field : β → RawField} {value : β → α}
    {items : List β} (ascending : Ascending (items.map field))
    (reads : ∀ item ∈ items, Reads action (field item).encode (value item)) :
    ReadsAll action (.ofBytes (encodeFields (items.map field))) (items.map value) := by
  rw [encodeFields, sortFields_of_ascending ascending, List.flatMap_map]
  exact readsAll_flatMap reads (fun item _ => (field item).encode_ne_nil) 0 0

theorem varints_flatMap (values : List Int32) :
    varints (values.flatMap (encodeVarint ∘ wordOfInt32)) =
      .ok (values.map (encodeVarint ∘ wordOfInt32)) := by
  refine varints_eq_ok_iff.mpr ⟨List.flatMap_def, List.forall_mem_map.mpr fun value _ => ?_⟩
  exact Read.carries_encodeVarint (wordOfInt32 value)

theorem Read.reads_int32s_len {values : List Int32}
    (short : (values.flatMap (encodeVarint ∘ wordOfInt32)).length < UInt64.size) :
    Reads (int32s .len)
      (encodeVarint (UInt64.ofNat (values.flatMap (encodeVarint ∘ wordOfInt32)).length) ++
        values.flatMap (encodeVarint ∘ wordOfInt32)) values := by
  refine (reads_slice short).finish ?_
  have back : (values.map (encodeVarint ∘ wordOfInt32)).map (int32OfWord ∘ decodeVarint) =
      values := by
    simp [Function.comp_def]
  simp only [varints_flatMap, back]
  exact Reads.pure values

theorem Read.reads_int32s_varint (value : Int32) :
    Reads (int32s .varint) (encodeVarint (wordOfInt32 value)) [value] :=
  (reads_int32 value).map fun value => [value]

/-- A list of integers in one field is read back; for no integers there is no field to read. -/
theorem readsAll_packedInt32s {number : UInt32} {values : List Int32} (nonzero : number ≠ 0)
    (short : (values.flatMap (encodeVarint ∘ wordOfInt32)).length < UInt64.size) :
    ReadsAll (Read.tagged Read.int32s)
      (.ofBytes (encodeFields (RawField.packedInt32s number values)))
      (if values.isEmpty then [] else [(number, .len, values)]) := by
  rw [RawField.packedInt32s]
  split
  · exact .done (by rw [encodeFields, sortFields_nil]; rfl)
  · have reads : ∀ item ∈ [values], Reads (Read.tagged Read.int32s)
        (RawField.bytes number (values.flatMap (encodeVarint ∘ wordOfInt32))).encode
        (number, WireType.len, item) := by
      rw [List.forall_mem_singleton]
      exact RawField.reads_encode nonzero (Read.reads_int32s_len short)
    refine readsAll_encodeFields ?_ reads
    exact List.pairwise_singleton _ _

/-- A list of integers in one field each is read back. -/
theorem readsAll_int32s {number : UInt32} (nonzero : number ≠ 0) (values : List Int32) :
    ReadsAll (Read.tagged Read.int32s) (.ofBytes (encodeFields (RawField.int32s number values)))
      (values.map fun value => (number, .varint, [value])) := by
  refine readsAll_encodeFields ?_ fun value _ => ?_
  · exact List.pairwise_map.mpr (List.pairwise_of_forall fun _ _ => UInt32.le_refl number)
  · exact RawField.reads_encode nonzero (Read.reads_int32s_varint value)

/-- What is written for a word is read back as the word and nothing more, whatever follows it; it
takes one to ten bytes, is the shortest varint of the word, and no shorter varint is even read as
the word.  Signed words are folded and unfolded by shifts.  A scalar that is written as a field is
read back with its number and its wire type, whatever follows it.  A list of integers is read back
field by field, whether it is written as one field, whose length has to fit into a word, or as one
field each. -/
theorem scalars_read_back :
    (∀ word : UInt64, Reads Read.varint (encodeVarint word) word ∧
      0 < (encodeVarint word).length ∧ (encodeVarint word).length ≤ 10 ∧
      (∀ groups, ShortestVarint word.toNat groups ↔ groups = encodeVarint word) ∧
      ∀ cursor after, Read.varint cursor = .ok word after →
        cursor.position + (encodeVarint word).length ≤ after.position) ∧
    (∀ value : Int64, zigzag value = ((value <<< 1) ^^^ (value >>> 63)).toUInt64) ∧
    (∀ word : UInt64, unzigzag word = (word >>> 1).toInt64 ^^^ -(word &&& 1).toInt64) ∧
    ∀ number : UInt32, number ≠ 0 →
      (∀ value, Reads (Read.tagged fun _ => Read.int32) (encodeFields [.int32 number value])
        (number, .varint, value)) ∧
      (∀ value, Reads (Read.tagged fun _ => Read.bool) (encodeFields [.bool number value])
        (number, .varint, value)) ∧
      (∀ value, Reads (Read.tagged fun _ => Read.sint64) (encodeFields [.sint64 number value])
        (number, .varint, value)) ∧
      (∀ bits, Reads (Read.tagged fun _ => Read.float) (encodeFields [.float number bits])
        (number, .fixed32, bits)) ∧
      (∀ bits, Reads (Read.tagged fun _ => Read.double) (encodeFields [.double number bits])
        (number, .fixed64, bits)) ∧
      ∀ values : List Int32,
        ((values.flatMap (encodeVarint ∘ wordOfInt32)).length < UInt64.size →
          ReadsAll (Read.tagged Read.int32s)
            (.ofBytes (encodeFields (RawField.packedInt32s number values)))
            (if values.isEmpty then [] else [(number, .len, values)])) ∧
        ReadsAll (Read.tagged Read.int32s)
          (.ofBytes (encodeFields (RawField.int32s number values)))
          (values.map fun value => (number, .varint, [value])) := by
  refine ⟨?_, zigzag_eq_shift, unzigzag_eq_shift, ?_⟩
  · intro word
    exact ⟨Read.reads_varint word, (isVarint_encodeVarint word).length_pos,
      length_encodeVarint_le word, fun _ => shortestVarint_iff,
      fun _ _ => Read.length_encodeVarint_le_of_varint⟩
  · intro number nonzero
    refine ⟨fun value => ?_, fun value => ?_, fun value => ?_, fun bits => ?_, fun bits => ?_,
      fun values => ⟨?_, ?_⟩⟩
    · exact reads_encodeFields_singleton nonzero nofun (Read.reads_int32 value)
    · exact reads_encodeFields_singleton nonzero nofun (Read.reads_bool value)
    · exact reads_encodeFields_singleton nonzero nofun (Read.reads_sint64 value)
    · exact reads_encodeFields_singleton nonzero nofun (Read.reads_float bits)
    · exact reads_encodeFields_singleton nonzero nofun (Read.reads_double bits)
    · exact readsAll_packedInt32s nonzero
    · exact readsAll_int32s nonzero values

/-- The largest field number takes a tag of 35 bits, and the least 64-bit integer all ten bytes; so
does each negative integer of a list. -/
theorem scalars_read_back_sample :
    Reads (Read.tagged fun _ => Read.sint64)
      [0xF8, 0xFF, 0xFF, 0xFF, 0x7F, 0xFF, 0xFF, 0xFF, 0xFF, 0xFF, 0xFF, 0xFF, 0xFF, 0xFF, 1]
      (4294967295, .varint, Int64.minValue) ∧
    ReadsAll (Read.tagged Read.int32s)
      (.ofBytes [0xFA, 0xFF, 0xFF, 0xFF, 0x7F, 12,
        0xFF, 0xFF, 0xFF, 0xFF, 0xFF, 0xFF, 0xFF, 0xFF, 0xFF, 1, 0xAC, 2])
      [(4294967295, .len, [-1, 300])] := by
  obtain ⟨_, _, _, fields⟩ := scalars_read_back
  obtain ⟨_, _, folded, _, _, lists⟩ := fields 4294967295 (by decide)
  have number := folded Int64.minValue
  have list := (lists [-1, 300]).1 (by decide)
  rw [encodeFields_singleton] at number
  rw [RawField.packedInt32s, if_neg (by decide), encodeFields_singleton] at list
  exact ⟨number, list⟩

end KotlinMetadata.Wire
