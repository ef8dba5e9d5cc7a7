import KotlinMetadata.Payload
import KotlinMetadata.Proofs.Names.Lookup
import KotlinMetadata.Proofs.Tree.Length

/-!
# Payloads from messages and back

Writing a message numbers its names, and reading goes through the very table
that this makes, so a payload gives back the message that it was made from.
Whatever can be read is a message that can be written, and writing it settles
it: from then on neither the bytes nor the strings change.
-/

namespace KotlinMetadata.Payload

open Wire

section

variable {kind : Kind} (message : Message kind)

/-- The numbers of the names of a message. -/
def numbering : Numbering :=
  .ofList (message.names.map fun (role, text) => role.tableName text)

/-- There is a number for every name and a length for every part of the payload. -/
structure Fits : Prop where
  /-- No number overflows. -/
  few : (numbering message).names.length < 2147483648
  /-- No length overflows; no buffer in memory is that long. -/
  short : (ofMessage message).bytes.length < UInt64.size

theorem bytes_ofMessage : (ofMessage message).bytes =
    encodeVarint (UInt64.ofNat (numbering message).table.encode.length) ++
      (numbering message).table.encode ++ message.encode (numbering message).index :=
  rfl

/-- Every name of a message is found under its number. -/
theorem resolves_numbering {message : Message kind}
    (few : (numbering message).names.length < 2147483648) :
    message.Resolves (numbering message).resolver.lookup (numbering message).index := by
  intro name mem
  apply Numbering.lookup_index few
  exact Numbering.mem_names_ofList.mpr (List.mem_map_of_mem mem)

end

section

variable {kind : Kind} {message : Message kind}

theorem short_table_of_short (short : (ofMessage message).bytes.length < UInt64.size) :
    (numbering message).table.encode.length < UInt64.size := by
  rw [bytes_ofMessage, List.length_append, List.length_append] at short
  omega

theorem Fits.short_message (fits : Fits message) :
    (message.encode (numbering message).index).length < UInt64.size := by
  have short := fits.short
  rw [bytes_ofMessage, List.length_append] at short
  omega

/-- Whether a message fits can be told from what its parts take up at most. -/
theorem fits_of_weight (few : (numbering message).names.length < 2147483648)
    (light : 10 + (numbering message).table.toMessage.weight + message.weight < UInt64.size) :
    Fits message := by
  refine ⟨few, Nat.lt_of_le_of_lt ?_ light⟩
  rw [bytes_ofMessage, List.length_append, List.length_append]
  exact Nat.add_le_add
    (Nat.add_le_add (length_encodeVarint_le _) (Tree.length_encode_le _ _))
    (Tree.length_encode_le _ _)

/-- The table is taken off the front of a written payload, and the message is left. -/
theorem slice_ofMessage (short : (numbering message).table.encode.length < UInt64.size) :
    ∃ position, Read.slice (.ofBytes (ofMessage message).bytes) =
      .ok (numbering message).table.encode
        ⟨message.encode (numbering message).index, position, 0⟩ :=
  ⟨_, Read.reads_slice short (message.encode (numbering message).index) 0 0⟩

/-- A written payload is headed by the table of its numbering. -/
theorem readTable_ofMessage (short : (numbering message).table.encode.length < UInt64.size) :
    readTable (ofMessage message).bytes = .ok (numbering message).table := by
  obtain ⟨_, taken⟩ := slice_ofMessage short
  rw [readTable, taken]
  exact (numbering message).decode_encode_table short

/-- Reading a written payload comes down to decoding the message. -/
theorem toMessage_ofMessage_eq_decode (fits : Fits message) :
    toMessage kind (ofMessage message) =
      Tree.decode (numbering message).resolver.lookup nestingLimit kind
        (message.encode (numbering message).index) := by
  have short := short_table_of_short fits.short
  obtain ⟨_, taken⟩ := slice_ofMessage short
  have decoded := Numbering.decode_encode_table (numbering message) short
  rw [toMessage, taken]
  change StringTable.decode _ >>= _ = _
  rw [decoded]
  rfl

/-- A well-formed message that is not nested too deeply is read back from its payload. -/
theorem toMessage_ofMessage_of_height_le (wellFormed : message.WellFormed) (fits : Fits message)
    (height_le : message.height ≤ nestingLimit + 1) :
    toMessage kind (ofMessage message) = .ok message.sortUnknown := by
  rw [toMessage_ofMessage_eq_decode fits]
  exact Tree.decode_encode wellFormed (resolves_numbering fits.few) height_le fits.short_message

/-- A well-formed message is read back from its payload, the fields that it does not know by
number, if there are at most `nestingLimit` levels of messages inside it.  If there are more, the
payload is refused for that. -/
theorem toMessage_ofMessage (wellFormed : message.WellFormed) (fits : Fits message) :
    (message.height ≤ nestingLimit + 1 →
      toMessage kind (ofMessage message) = .ok message.sortUnknown) ∧
    (nestingLimit + 1 < message.height → ∃ offset,
      toMessage kind (ofMessage message) = .error (.nestedTooDeep nestingLimit offset)) := by
  constructor
  · exact toMessage_ofMessage_of_height_le wellFormed fits
  · intro tooHigh
    rw [toMessage_ofMessage_eq_decode fits]
    exact Tree.decode_encode_of_height wellFormed (resolves_numbering fits.few) tooHigh
      fits.short_message

/-- A file with a module name, given the fields that it does not know. -/
def moduleSample (unknown : List RawField) : Message .package :=
  .message (.cons .empty <| .cons .empty <| .cons .empty <| .cons .absent <| .cons .absent <|
    .cons (.present (.leaf _ "main")) <| .cons .empty .nil) unknown

/-- A condition of a contract inside as many others. -/
def nestedSample : Nat → Message .effectExpression
  | 0 => .message (.cons .absent <| .cons .absent <| .cons .absent <| .cons .absent <|
      .cons .absent <| .cons .empty <| .cons .empty .nil) []
  | levels + 1 => .message (.cons .absent <| .cons .absent <| .cons .absent <| .cons .absent <|
      .cons .absent <| .cons (.more (nestedSample levels) .empty) <| .cons .empty .nil) []

/-- A lambda with a contract whose condition is inside as many others. -/
def lambdaSample (levels : Nat) : Message .function :=
  .message (.cons .absent <| .cons (.exactly (.leaf _ "invoke")) <| .cons .absent <|
    .cons .empty <| .cons .absent <| .cons .empty <| .cons .absent <| .cons .absent <|
    .cons .absent <| .cons .empty <| .cons .empty <| .cons .absent <| .cons .empty <|
    .cons (.present (.message (.cons (.more (.message (.cons .absent <| .cons .empty <|
      .cons (.present (nestedSample levels)) <| .cons .absent .nil) []) .empty) .nil) [])) <|
    .cons .absent <| .cons .absent .nil) []

set_option maxRecDepth 8000 in
/-- One level more than allowed is too much, and unknown fields that are not in order are put in
order. -/
theorem toMessage_ofMessage_samples :
    toMessage .package (ofMessage (moduleSample [.bytes 200 [7], .bytes 9 [], .bytes 200 []])) =
        .ok (moduleSample [.bytes 200 [7], .bytes 9 [], .bytes 200 []]).sortUnknown ∧
      ∃ offset, toMessage .function (ofMessage (lambdaSample 98)) =
        .error (.nestedTooDeep nestingLimit offset) := by
  constructor
  · exact (toMessage_ofMessage (by decide) (fits_of_weight (by decide) (by decide +kernel))).1
      (by decide)
  · exact (toMessage_ofMessage (by decide) (fits_of_weight (by decide) (by decide +kernel))).2
      (by decide +kernel)

/-- Payloads make no difference between fields that a message does not know in reading order and
by number. -/
@[simp]
theorem ofMessage_sortUnknown : ofMessage message.sortUnknown = ofMessage message := by
  simp [ofMessage, Tree.encode]

end

/-- A message that is read is decoded behind a string table, by the names that the table makes of
the strings. -/
theorem exists_table_of_toMessage {kind : Kind} {payload : Payload} {message : Message kind}
    (read : toMessage kind payload = .ok message) :
    ∃ table bytes, readTable payload.bytes = .ok table ∧
      Tree.decode (table.resolver payload.strings).lookup nestingLimit kind bytes =
        .ok message := by
  rw [toMessage] at read
  split at read
  · cases read
  · rename_i bytes cursor taken
    rcases bind_eq_ok_iff.mp read with ⟨table, decoded, read⟩
    refine ⟨table, cursor.rest, ?_, read⟩
    rw [readTable, taken]
    exact decoded

/-- Only well-formed messages are read, none of them nested too deeply. -/
theorem wellFormed_of_toMessage {kind : Kind} {payload : Payload} {message : Message kind}
    (read : toMessage kind payload = .ok message) :
    message.WellFormed ∧ message.height ≤ nestingLimit + 1 := by
  obtain ⟨_, _, _, decoded⟩ := exists_table_of_toMessage read
  exact Tree.wellFormed_of_decode decoded

/-- A payload without strings has no names in its message. -/
theorem names_eq_nil_of_toMessage {kind : Kind} {bytes : List UInt8} {message : Message kind}
    (read : toMessage kind { bytes, strings := [] } = .ok message) : message.names = [] := by
  obtain ⟨table, _, _, decoded⟩ := exists_table_of_toMessage read
  apply List.eq_nil_iff_forall_not_mem.mpr
  intro name mem
  obtain ⟨index, found⟩ := Tree.lookedUp_of_decode decoded name mem
  rw [StringTable.lookup_resolver_nil] at found
  cases found

theorem strings_ofMessage_of_names {kind : Kind} {message : Message kind}
    (nameless : message.names = []) : (ofMessage message).strings = [] := by
  rw [ofMessage, nameless]
  rfl

/-- Whatever is read can be written.  Reading it again gives the same with the fields that it does
not know by number, and writing that gives the same payload. -/
theorem settled_of_toMessage {kind : Kind} {payload : Payload} {message : Message kind}
    (read : toMessage kind payload = .ok message) :
    message.WellFormed ∧ message.height ≤ nestingLimit + 1 ∧
      (Fits message → toMessage kind (ofMessage message) = .ok message.sortUnknown) ∧
      ofMessage message.sortUnknown = ofMessage message := by
  obtain ⟨wellFormed, height_le⟩ := wellFormed_of_toMessage read
  have readBack : Fits message → toMessage kind (ofMessage message) = .ok message.sortUnknown := by
    intro fits
    exact toMessage_ofMessage_of_height_le wellFormed fits height_le
  exact ⟨wellFormed, height_le, readBack, ofMessage_sortUnknown⟩

/-- A payload with a length in two bytes, an orphan string and a name given twice, once in a longer
form, is settled by writing it once. -/
theorem settled_of_toMessage_sample :
    let payload : Payload :=
      { bytes := [0x80, 0, 0xC2, 0x0C, 1, 7, 0xA8, 6, 1, 0xA8, 6, 0x80, 0, 0x48, 0x85, 0]
        strings := ["main", "orphan"] }
    let message := moduleSample [.bytes 200 [7], ⟨9, .varint, [0x85, 0]⟩]
    toMessage .package payload = .ok message ∧
      toMessage .package (ofMessage message) = .ok message.sortUnknown ∧
      ofMessage message.sortUnknown = ofMessage message := by
  intro payload message
  have read : toMessage .package payload = .ok message := by decide +kernel
  obtain ⟨_, _, readBack, settled⟩ := settled_of_toMessage read
  exact ⟨read, readBack (fits_of_weight (by decide) (by decide +kernel)), settled⟩

end KotlinMetadata.Payload
