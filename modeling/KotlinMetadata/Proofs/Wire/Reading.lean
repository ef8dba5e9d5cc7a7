import KotlinMetadata.Wire.Field

/-!
# Reading what was written

An action reads bytes as a value if it does so wherever the bytes stand and
whatever follows them.  Every writer of the format has an action that reads
its bytes back.  In the other direction, an action that succeeds has passed
bytes of the shape that it asks for, and nothing but these.
-/

namespace KotlinMetadata.Wire

/-- Payloads that a field with a given wire type can carry. -/
def WireType.Carries : WireType → List UInt8 → Prop
  | varint, data => IsVarint data ∧ data.length ≤ 10
  | fixed64, data => data.length = 8
  | len, _ => True
  | fixed32, data => data.length = 4

/-- Fields that can stand in a buffer: numbers begin with one, and the payload has the shape of
its wire type. -/
structure RawField.Valid (field : RawField) : Prop where
  number_ne_zero : field.number ≠ 0
  carries : field.wire.Carries field.data

instance decidableIsVarint : (bytes : List UInt8) → Decidable (IsVarint bytes)
  | [] => isFalse id
  | [byte] => inferInstanceAs (Decidable (byte < 128))
  | byte :: next :: rest =>
      have := decidableIsVarint (next :: rest)
      inferInstanceAs (Decidable (128 ≤ byte ∧ IsVarint (next :: rest)))

instance : (wire : WireType) → (data : List UInt8) → Decidable (wire.Carries data)
  | .varint, data => inferInstanceAs (Decidable (IsVarint data ∧ data.length ≤ 10))
  | .fixed64, data => inferInstanceAs (Decidable (data.length = 8))
  | .len, _ => isTrue trivial
  | .fixed32, data => inferInstanceAs (Decidable (data.length = 4))

theorem RawField.valid_iff {field : RawField} :
    field.Valid ↔ field.number ≠ 0 ∧ field.wire.Carries field.data :=
  ⟨fun valid => ⟨valid.number_ne_zero, valid.carries⟩, fun ⟨nonzero, carries⟩ => ⟨nonzero, carries⟩⟩

instance (field : RawField) : Decidable field.Valid :=
  decidable_of_iff' _ RawField.valid_iff

/-- From one cursor to another, `bytes` are read. -/
structure Cursor.Passes (before : Cursor) (bytes : List UInt8) (after : Cursor) : Prop where
  rest_eq : before.rest = bytes ++ after.rest
  position_eq : after.position = before.position + bytes.length
  depth_eq : after.depth = before.depth

theorem Cursor.Passes.append {before middle after : Cursor} {first second : List UInt8}
    (head : before.Passes first middle) (tail : middle.Passes second after) :
    before.Passes (first ++ second) after where
  rest_eq := by rw [head.rest_eq, tail.rest_eq, List.append_assoc]
  position_eq := by rw [tail.position_eq, head.position_eq, List.length_append, Nat.add_assoc]
  depth_eq := tail.depth_eq.trans head.depth_eq

theorem Cursor.Passes.split {before after : Cursor} {first second : List UInt8}
    (passes : before.Passes (first ++ second) after) :
    ∃ middle, before.Passes first middle ∧ middle.Passes second after := by
  refine ⟨⟨second ++ after.rest, before.position + first.length, before.depth⟩, ⟨?_, rfl, rfl⟩,
    rfl, ?_, passes.depth_eq⟩
  · rw [passes.rest_eq, List.append_assoc]
  · rw [passes.position_eq, List.length_append, Nat.add_assoc]

/-- `action` reads `bytes` as `value`, wherever they stand and whatever follows them. -/
def Reads {α : Type} (action : Read α) (bytes : List UInt8) (value : α) : Prop :=
  ∀ rest position depth, action ⟨bytes ++ rest, position, depth⟩ =
    .ok value ⟨rest, position + bytes.length, depth⟩

namespace Reads

variable {α β : Type}

theorem run {action : Read α} {bytes : List UInt8} {value : α} (reads : Reads action bytes value)
    {before after : Cursor} (passes : before.Passes bytes after) :
    action before = .ok value after := by
  rcases before with ⟨rest, position, depth⟩
  rcases after with ⟨rest', position', depth'⟩
  have rest_eq : rest = bytes ++ rest' := passes.rest_eq
  have position_eq : position' = position + bytes.length := passes.position_eq
  have depth_eq : depth' = depth := passes.depth_eq
  rw [rest_eq, position_eq, depth_eq]
  exact reads rest' position depth

theorem pure (value : α) : Reads (Pure.pure value) [] value := by
  intro rest position depth
  rfl

theorem bind {action : Read α} {next : α → Read β} {first second : List UInt8} {middle : α}
    {value : β} (head : Reads action first middle) (tail : Reads (next middle) second value) :
    Reads (action >>= next) (first ++ second) value := by
  intro rest position depth
  have start := head (second ++ rest) position depth
  rw [← List.append_assoc] at start
  change EStateM.bind action next _ = _
  rw [EStateM.bind, start]
  simpa [Nat.add_assoc] using tail rest (position + first.length) depth

/-- What comes after an action may read nothing more. -/
theorem finish {action : Read α} {next : α → Read β} {bytes : List UInt8} {middle : α}
    {value : β} (head : Reads action bytes middle) (tail : Reads (next middle) [] value) :
    Reads (action >>= next) bytes value := by
  simpa using head.bind tail

theorem map {action : Read α} {bytes : List UInt8} {value : α} (f : α → β)
    (head : Reads action bytes value) :
    Reads (action >>= fun x => Pure.pure (f x)) bytes (f value) :=
  head.finish (.pure (f value))

theorem get {next : Cursor → Read β} {bytes : List UInt8} {value : β}
    (tail : ∀ cursor, Reads (next cursor) bytes value) :
    Reads (MonadState.get >>= next) bytes value := by
  intro rest position depth
  exact tail _ rest position depth

end Reads

namespace Read

theorem reads_byte (b : UInt8) : Reads byte [b] b := by
  intro rest position depth
  rfl

theorem reads_take {count : Nat} {bytes : List UInt8} (length_eq : bytes.length = count) :
    Reads (take count) bytes bytes := by
  intro rest position depth
  subst length_eq
  simp [take]

/-- A varint of at most the allowed length is read group by group. -/
theorem reads_groupsFrom (start : Nat) {k : Nat} {bytes : List UInt8} (shape : IsVarint bytes)
    (short : bytes.length ≤ k) : Reads (groupsFrom start k) bytes bytes := by
  induction k generalizing bytes with
  | zero =>
      have empty : bytes = [] := List.length_eq_zero_iff.mp (Nat.le_zero.mp short)
      subst empty
      exact shape.elim
  | succ k ih =>
      cases bytes with
      | nil => exact shape.elim
      | cons b bytes =>
          rw [groupsFrom]
          change Reads _ ([b] ++ bytes) _
          refine (reads_byte b).bind ?_
          cases bytes with
          | nil =>
              have last : b < 128 := shape
              simp only [last, if_true]
              exact Reads.pure [b]
          | cons c bytes =>
              rcases shape with ⟨continued, rest⟩
              have notLast : ¬ b < 128 := UInt8.not_lt.mpr continued
              simp only [notLast, if_false]
              exact (ih rest (Nat.le_of_succ_le_succ short)).map (b :: ·)

theorem reads_groups {bytes : List UInt8} (shape : WireType.varint.Carries bytes) :
    Reads groups bytes bytes :=
  Reads.get fun cursor => reads_groupsFrom cursor.position shape.1 shape.2

/-- What is written for a word can be the payload of a field. -/
theorem carries_encodeVarint (word : UInt64) : WireType.varint.Carries (encodeVarint word) :=
  ⟨isVarint_encodeVarint word, length_encodeVarint_le word⟩

theorem reads_varint_of_carries {bytes : List UInt8} (carries : WireType.varint.Carries bytes) :
    Reads varint bytes (decodeVarint bytes) :=
  (reads_groups carries).map decodeVarint

theorem reads_slice_of_carries {length data : List UInt8}
    (carries : WireType.varint.Carries length)
    (value : (decodeVarint length).toNat = data.length) : Reads slice (length ++ data) data :=
  (reads_varint_of_carries carries).bind (reads_take value.symm)

theorem toNat_ofNat_length {data : List UInt8} (short : data.length < UInt64.size) :
    (UInt64.ofNat data.length).toNat = data.length := by
  rw [UInt64.toNat_ofNat', Nat.mod_eq_of_lt]
  exact short

theorem reads_slice {data : List UInt8} (short : data.length < UInt64.size) :
    Reads slice (encodeVarint (UInt64.ofNat data.length) ++ data) data := by
  refine reads_slice_of_carries (carries_encodeVarint _) ?_
  rw [decodeVarint_encodeVarint, toNat_ofNat_length short]

/-- Two actions in a row succeed if each of them does. -/
theorem bind_eq_ok_iff {α β : Type} {action : Read α} {next : α → Read β} {cursor after : Cursor}
    {value : β} :
    (action >>= next) cursor = .ok value after ↔
      ∃ middle between, action cursor = .ok middle between ∧
        next middle between = .ok value after := by
  change EStateM.bind action next cursor = _ ↔ _
  rw [EStateM.bind]
  cases action cursor with
  | ok middle between =>
      constructor
      · intro read
        exact ⟨middle, between, rfl, read⟩
      · rintro ⟨_, _, same, read⟩
        cases same
        exact read
  | error fault between => simp

/-! ## What was read -/

theorem passes_of_byte {cursor after : Cursor} {b : UInt8} (read : byte cursor = .ok b after) :
    cursor.Passes [b] after := by
  rcases cursor with ⟨rest, position, depth⟩
  cases rest with
  | nil => cases read
  | cons b rest =>
      cases read
      exact ⟨rfl, rfl, rfl⟩

theorem take_eq_ok_iff {count : Nat} {cursor after : Cursor} {bytes : List UInt8} :
    take count cursor = .ok bytes after ↔ bytes.length = count ∧ cursor.Passes bytes after := by
  constructor
  · intro read
    simp only [take] at read
    split at read
    · rename_i length_eq
      cases read
      refine ⟨length_eq, (List.take_append_drop count cursor.rest).symm, ?_, rfl⟩
      rw [length_eq]
    · cases read
  · rintro ⟨length_eq, passes⟩
    exact (reads_take length_eq).run passes

theorem passes_of_groupsFrom {start k : Nat} {cursor after : Cursor} {bytes : List UInt8}
    (read : groupsFrom start k cursor = .ok bytes after) :
    (IsVarint bytes ∧ bytes.length ≤ k) ∧ cursor.Passes bytes after := by
  induction k generalizing cursor bytes with
  | zero => cases read
  | succ k ih =>
      rw [groupsFrom, bind_eq_ok_iff] at read
      rcases read with ⟨b, between, first, read⟩
      have passed := passes_of_byte first
      split at read
      · rename_i last
        cases read
        exact ⟨⟨last, Nat.succ_le_succ (Nat.zero_le k)⟩, passed⟩
      · rename_i continued
        rw [bind_eq_ok_iff] at read
        rcases read with ⟨groups, _, tail, read⟩
        cases read
        obtain ⟨⟨shape, short⟩, rest⟩ := ih tail
        refine ⟨⟨?_, Nat.succ_le_succ short⟩, passed.append rest⟩
        cases groups with
        | nil => exact shape.elim
        | cons c groups => exact ⟨UInt8.not_lt.mp continued, shape⟩

theorem groups_eq_ok_iff {cursor after : Cursor} {bytes : List UInt8} :
    groups cursor = .ok bytes after ↔
      WireType.varint.Carries bytes ∧ cursor.Passes bytes after := by
  constructor
  · intro read
    rw [groups, bind_eq_ok_iff] at read
    rcases read with ⟨_, _, here, read⟩
    cases here
    exact passes_of_groupsFrom read
  · rintro ⟨carries, passes⟩
    exact (reads_groups carries).run passes

theorem varint_eq_ok_iff {cursor after : Cursor} {word : UInt64} :
    varint cursor = .ok word after ↔
      ∃ bytes, WireType.varint.Carries bytes ∧ decodeVarint bytes = word ∧
        cursor.Passes bytes after := by
  rw [varint, bind_eq_ok_iff]
  constructor
  · rintro ⟨bytes, _, read, same⟩
    cases same
    obtain ⟨carries, passes⟩ := groups_eq_ok_iff.mp read
    exact ⟨bytes, carries, rfl, passes⟩
  · rintro ⟨bytes, carries, rfl, passes⟩
    exact ⟨bytes, after, groups_eq_ok_iff.mpr ⟨carries, passes⟩, rfl⟩

theorem slice_eq_ok_iff {cursor after : Cursor} {data : List UInt8} :
    slice cursor = .ok data after ↔
      ∃ length, WireType.varint.Carries length ∧ (decodeVarint length).toNat = data.length ∧
        cursor.Passes (length ++ data) after := by
  rw [slice, bind_eq_ok_iff]
  constructor
  · rintro ⟨word, between, first, read⟩
    rcases varint_eq_ok_iff.mp first with ⟨length, carries, rfl, passed⟩
    obtain ⟨length_eq, passes⟩ := take_eq_ok_iff.mp read
    exact ⟨length, carries, length_eq.symm, passed.append passes⟩
  · rintro ⟨length, carries, value, passes⟩
    exact bind_eq_ok_iff.mp ((reads_slice_of_carries carries value).run passes)

end Read

end KotlinMetadata.Wire
