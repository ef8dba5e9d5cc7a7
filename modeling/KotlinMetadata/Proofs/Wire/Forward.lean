import KotlinMetadata.Proofs.Wire.Scalar
import KotlinMetadata.Proofs.Wire.Spelling

/-!
# Moving forward

Reading actions move a cursor forward and never out of its buffer, those that
fail on the way included.  So a cursor has always read a front of its buffer,
and what an action finds stands in the buffer behind it.
-/

namespace KotlinMetadata.Wire

namespace Cursor

/-- From one cursor to another, some bytes are read. -/
def Reaches (before after : Cursor) : Prop :=
  ∃ bytes, before.Passes bytes after

namespace Reaches

variable {before middle after : Cursor}

theorem refl (cursor : Cursor) : cursor.Reaches cursor :=
  ⟨[], rfl, rfl, rfl⟩

theorem trans (head : before.Reaches middle) (tail : middle.Reaches after) :
    before.Reaches after := by
  rcases head with ⟨first, head⟩
  rcases tail with ⟨second, tail⟩
  exact ⟨first ++ second, head.append tail⟩

theorem position_le (reaches : before.Reaches after) : before.position ≤ after.position := by
  rcases reaches with ⟨bytes, passes⟩
  rw [passes.position_eq]
  exact Nat.le_add_right _ _

theorem depth_eq (reaches : before.Reaches after) : after.depth = before.depth := by
  rcases reaches with ⟨bytes, passes⟩
  exact passes.depth_eq

/-- What is read is no longer left. -/
theorem position_add_remaining (reaches : before.Reaches after) :
    after.position + after.remaining = before.position + before.remaining := by
  rcases reaches with ⟨bytes, passes⟩
  rw [remaining, remaining, passes.position_eq, passes.rest_eq, List.length_append, Nat.add_assoc]

end Reaches

theorem hasMore_iff {cursor : Cursor} : cursor.hasMore = true ↔ 0 < cursor.remaining := by
  rw [hasMore, remaining, List.length_pos_iff, Bool.not_eq_true', List.isEmpty_eq_false_iff]

/-- A cursor has read its buffer up to its position. -/
structure Within (cursor : Cursor) (buffer : List UInt8) : Prop where
  position_le : cursor.position ≤ buffer.length
  rest_eq : cursor.rest = buffer.drop cursor.position

namespace Within

variable {cursor after : Cursor} {buffer : List UInt8}

theorem start (buffer : List UInt8) (depth : Nat) : Within ⟨buffer, 0, depth⟩ buffer :=
  ⟨Nat.zero_le _, rfl⟩

theorem remaining_eq (within : cursor.Within buffer) :
    cursor.remaining = buffer.length - cursor.position := by
  rw [remaining, within.rest_eq, List.length_drop]

/-- A cursor that moves forward stays in its buffer. -/
theorem of_reaches (within : cursor.Within buffer) (reaches : cursor.Reaches after) :
    after.Within buffer := by
  have remaining_eq := within.remaining_eq
  have left := reaches.position_add_remaining
  have bound := within.position_le
  rcases reaches with ⟨bytes, passes⟩
  have rest_eq : bytes ++ after.rest = buffer.drop cursor.position :=
    passes.rest_eq.symm.trans within.rest_eq
  constructor
  · omega
  · rw [passes.position_eq, ← List.drop_drop, ← rest_eq, List.drop_left]

/-- What a cursor passes is added to the front of its buffer that it has read. -/
theorem take_of_passes (within : cursor.Within buffer) {bytes : List UInt8}
    (passes : cursor.Passes bytes after) :
    buffer.take after.position = buffer.take cursor.position ++ bytes := by
  have rest_eq : buffer.drop cursor.position = bytes ++ after.rest :=
    within.rest_eq.symm.trans passes.rest_eq
  rw [passes.position_eq, List.take_add, rest_eq, List.take_left]

end Within

end Cursor

/-- `action` moves a cursor forward, whether it finds a value or fails. -/
def Forward {α : Type} (action : Read α) : Prop :=
  ∀ cursor, match action cursor with
    | .ok _ after => cursor.Reaches after
    | .error _ after => cursor.Reaches after

namespace Forward

variable {α β : Type}

theorem pure (value : α) : Forward (Pure.pure value) :=
  Cursor.Reaches.refl

theorem throw (fault : PayloadError) : Forward (MonadExcept.throw fault : Read α) :=
  Cursor.Reaches.refl

theorem get : Forward (MonadState.get : Read Cursor) :=
  Cursor.Reaches.refl

theorem bind {action : Read α} {next : α → Read β} (head : Forward action)
    (tail : ∀ value, Forward (next value)) : Forward (action >>= next) := by
  intro cursor
  have first := head cursor
  change match EStateM.bind action next cursor with
    | .ok _ after => cursor.Reaches after
    | .error _ after => cursor.Reaches after
  rw [EStateM.bind]
  cases read : action cursor with
  | ok value middle =>
      rw [read] at first
      have second := tail value middle
      revert second
      dsimp only
      cases next value middle with
      | ok _ after => exact first.trans
      | error _ after => exact first.trans
  | error fault after =>
      rw [read] at first
      exact first

theorem map {action : Read α} (f : α → β) (head : Forward action) :
    Forward (action >>= fun x => Pure.pure (f x)) :=
  head.bind fun x => .pure (f x)

end Forward

namespace Read

theorem forward_byte : Forward byte := by
  intro cursor
  rcases cursor with ⟨rest, position, depth⟩
  cases rest with
  | nil => exact .refl _
  | cons b rest => exact ⟨[b], rfl, rfl, rfl⟩

/-- Bytes are taken if there are enough of them. -/
theorem take_of_le {count : Nat} {cursor : Cursor} (enough : count ≤ cursor.remaining) :
    take count cursor = .ok (cursor.rest.take count)
      { cursor with rest := cursor.rest.drop count, position := cursor.position + count } := by
  rw [take]
  exact if_pos (List.length_take_of_le enough)

/-- Where there are too few bytes, none is taken. -/
theorem take_of_lt {count : Nat} {cursor : Cursor} (few : cursor.remaining < count) :
    take count cursor = .error (.unexpectedEnd cursor.position) cursor := by
  have short : (cursor.rest.take count).length ≠ count := by
    rw [List.length_take]
    exact Nat.ne_of_lt (Nat.lt_of_le_of_lt (Nat.min_le_right _ _) few)
  rw [take]
  exact if_neg short

theorem forward_take (count : Nat) : Forward (take count) := by
  intro cursor
  rcases Nat.lt_or_ge cursor.remaining count with few | enough
  · rw [take_of_lt few]
    exact .refl cursor
  · have read := take_of_le enough
    rw [read]
    exact ⟨_, (take_eq_ok_iff.mp read).2⟩

theorem forward_groupsFrom (start k : Nat) : Forward (groupsFrom start k) := by
  induction k with
  | zero => exact .throw _
  | succ k ih =>
      refine forward_byte.bind fun b => ?_
      split
      · exact .pure _
      · exact ih.map (b :: ·)

theorem forward_groups : Forward groups :=
  Forward.get.bind fun cursor => forward_groupsFrom cursor.position 10

theorem forward_varint : Forward varint :=
  forward_groups.map decodeVarint

theorem forward_tag : Forward tag := by
  refine Forward.get.bind fun cursor => forward_varint.bind fun key => ?_
  dsimp only
  split
  · exact .throw _
  · split
    · exact .pure _
    · exact .throw _

theorem forward_slice : Forward slice :=
  forward_varint.bind fun length => forward_take length.toNat

theorem forward_payload (wire : WireType) : Forward (payload wire) := by
  cases wire with
  | varint => exact forward_groups
  | fixed64 => exact forward_take 8
  | len => exact forward_slice
  | fixed32 => exact forward_take 4

theorem forward_rawField (number : UInt32) (wire : WireType) : Forward (rawField number wire) :=
  (forward_payload wire).map (RawField.mk number wire)

/-- Reading a field is reading a tag and moving forward. -/
theorem exists_fieldEntry_eq (admits : UInt32 → WireType → Bool) :
    ∃ next, fieldEntry admits = tag >>= next ∧ ∀ key, Forward (next key) := by
  refine ⟨_, rfl, fun (number, wire) => Forward.get.bind fun cursor => ?_⟩
  split
  · exact (forward_rawField number wire).map _
  · exact .throw _

theorem forward_fieldEntry (admits : UInt32 → WireType → Bool) : Forward (fieldEntry admits) := by
  obtain ⟨_, entry_eq, forward⟩ := exists_fieldEntry_eq admits
  rw [entry_eq]
  exact forward_tag.bind forward

theorem forward_text : Forward text := by
  refine Forward.get.bind fun cursor => forward_slice.bind fun data => ?_
  split
  · exact .pure _
  · exact .throw _

theorem forward_int32s (wire : WireType) : Forward (int32s wire) := by
  rw [int32s]
  split
  · refine forward_slice.bind fun data => ?_
    split
    · exact .pure _
    · exact .throw _
  · exact (forward_varint.map int32OfWord).map fun value => [value]

/-- Entering a message moves the cursor around it behind it. -/
theorem forward_nested : Forward nested := by
  refine Forward.get.bind fun cursor => ?_
  split
  · exact .throw _
  · exact forward_slice.map _

/-! ## What was found -/

theorem position_of_carries {cursor after : Cursor} {groups : List UInt8}
    (carries : WireType.varint.Carries groups) (passes : cursor.Passes groups after) :
    cursor.position < after.position ∧ after.position ≤ cursor.position + 10 := by
  have positive := carries.1.length_pos
  have short := carries.2
  rw [passes.position_eq]
  omega

/-- A varint takes one to ten bytes. -/
theorem position_of_varint {cursor after : Cursor} {word : UInt64}
    (read : varint cursor = .ok word after) :
    cursor.position < after.position ∧ after.position ≤ cursor.position + 10 := by
  rcases varint_eq_ok_iff.mp read with ⟨_, carries, _, passes⟩
  exact position_of_carries carries passes

/-- A tag takes one to ten bytes. -/
theorem position_of_tag {cursor after : Cursor} {key : UInt32 × WireType}
    (read : tag cursor = .ok key after) :
    cursor.position < after.position ∧ after.position ≤ cursor.position + 10 := by
  obtain ⟨_, _, spells, passes⟩ := tag_eq_ok_iff.mp read
  exact position_of_carries spells.carries passes

/-- What begins with a tag and moves forward takes at least one byte. -/
theorem remaining_lt_of_tag_bind {α : Type} {next : UInt32 × WireType → Read α}
    (forward : ∀ key, Forward (next key)) {cursor after : Cursor} {value : α}
    (read : (tag >>= next) cursor = .ok value after) : after.remaining < cursor.remaining := by
  rcases bind_eq_ok_iff.mp read with ⟨key, middle, tagged, behind⟩
  have onward := (position_of_tag tagged).1
  have head := forward_tag cursor
  have tail := forward key middle
  rw [tagged] at head
  rw [behind] at tail
  have behindTag := tail.position_le
  have sum_eq := (head.trans tail).position_add_remaining
  omega

theorem remaining_lt_of_tag {cursor after : Cursor} {key : UInt32 × WireType}
    (read : tag cursor = .ok key after) : after.remaining < cursor.remaining :=
  remaining_lt_of_tag_bind Forward.pure (bind_eq_ok_iff.mpr ⟨key, after, read, rfl⟩)

/-- Bytes are found behind a length if there are as many as it says.  Where there are fewer, the
length stays read. -/
theorem slice_of_varint {cursor next : Cursor} {word : UInt64}
    (read : varint cursor = .ok word next) :
    slice cursor = if word.toNat ≤ next.remaining then
      .ok (next.rest.take word.toNat)
        { next with rest := next.rest.drop word.toNat, position := next.position + word.toNat }
    else .error (.unexpectedEnd next.position) next := by
  change EStateM.bind varint (fun word => take word.toNat) cursor = _
  rw [EStateM.bind, read]
  change take word.toNat next = _
  split
  · rename_i enough
    exact take_of_le enough
  · rename_i few
    exact take_of_lt (Nat.not_le.mp few)

/-- A message is entered where its bytes are, one level deeper. -/
theorem nested_eq_ok_iff {cursor inner outer : Cursor} :
    nested cursor = .ok inner outer ↔
      cursor.depth < nestingLimit ∧ ∃ data, slice cursor = .ok data outer ∧
        inner = { rest := data, depth := cursor.depth + 1 } := by
  rw [nested, bind_eq_ok_iff]
  constructor
  · rintro ⟨_, _, here, read⟩
    cases here
    split at read
    · cases read
    · rename_i shallow
      rcases bind_eq_ok_iff.mp read with ⟨data, _, read, same⟩
      cases same
      exact ⟨Nat.not_le.mp shallow, data, read, rfl⟩
  · rintro ⟨shallow, data, read, rfl⟩
    refine ⟨cursor, cursor, rfl, ?_⟩
    rw [if_neg (Nat.not_le.mpr shallow)]
    exact bind_eq_ok_iff.mpr ⟨data, outer, read, rfl⟩

theorem infix_of_passes {cursor after : Cursor} {front data : List UInt8}
    (passes : cursor.Passes (front ++ data) after) : data <:+: cursor.rest :=
  ⟨front, after.rest, passes.rest_eq.symm⟩

theorem infix_of_slice {cursor after : Cursor} {data : List UInt8}
    (read : slice cursor = .ok data after) : data <:+: cursor.rest := by
  obtain ⟨_, _, _, passes⟩ := slice_eq_ok_iff.mp read
  exact infix_of_passes passes

theorem infix_of_text {cursor after : Cursor} {value : String}
    (read : text cursor = .ok value after) : value.toUTF8.toList <:+: cursor.rest := by
  rw [text, bind_eq_ok_iff] at read
  rcases read with ⟨_, _, here, read⟩
  cases here
  rcases bind_eq_ok_iff.mp read with ⟨data, _, sliced, read⟩
  cases found : String.fromUTF8? data.toByteArray with
  | some text =>
      rw [found] at read
      cases read
      rw [toUTF8_of_fromUTF8? found, toList_toByteArray]
      exact infix_of_slice sliced
  | none =>
      rw [found] at read
      cases read

theorem infix_of_rawField {number : UInt32} {wire : WireType} {cursor after : Cursor}
    {field : RawField} (read : rawField number wire cursor = .ok field after) :
    field.data <:+: cursor.rest := by
  rw [rawField, bind_eq_ok_iff] at read
  rcases read with ⟨data, _, read, same⟩
  cases same
  obtain ⟨_, _, _, passes⟩ := payload_eq_ok_iff.mp read
  exact infix_of_passes passes

theorem infix_of_fieldEntry {admits : UInt32 → WireType → Bool} {cursor after : Cursor}
    {entry : FieldEntry} (read : fieldEntry admits cursor = .ok entry after) :
    entry.field.data <:+: cursor.rest := by
  obtain ⟨_, spelling, field_eq, _, passes⟩ := fieldEntry_eq_ok_iff.mp read
  rw [Spelling.bytes, ← List.append_assoc, field_eq] at passes
  exact infix_of_passes passes

/-- A field takes at least one byte. -/
theorem remaining_lt_of_fieldEntry {admits : UInt32 → WireType → Bool} {cursor after : Cursor}
    {entry : FieldEntry} (read : fieldEntry admits cursor = .ok entry after) :
    after.remaining < cursor.remaining := by
  obtain ⟨_, entry_eq, forward⟩ := exists_fieldEntry_eq admits
  rw [entry_eq] at read
  exact remaining_lt_of_tag_bind forward read

end Read

end KotlinMetadata.Wire
