import KotlinMetadata.Proofs.Faults
import KotlinMetadata.Proofs.Tree.Values

/-!
# Reading field by field

A message is read entry by entry, each handed to the field that takes it.  If
that succeeds, the same message is found field by field: each field decodes
the entries that it takes and leaves the others to the fields behind it.  The
two ways differ in the fault that shows first, not in the messages found.
-/

namespace KotlinMetadata

open Wire

/-- Whether a field of a buffer is an occurrence of a field of the schema. -/
def Field.takes (field : Field) (raw : RawField) : Bool :=
  field.accepts raw.number raw.wire

/-- The payloads that a field of a buffer holds for the field of the schema that takes it. -/
def Field.payloads (field : Field) (raw : RawField) : Except PayloadError (List (List UInt8)) :=
  if field.packable && raw.wire = .len then varints raw.data else .ok [raw.data]

namespace Tree

variable (lookup : NameLookup)
  (inner : (kind : Kind) → List UInt8 → Except PayloadError (Message kind))

/-- The fields of a message and the fields that it does not know are found field by field in the
entries of a buffer. -/
inductive Gathers : (fields : List Field) → List FieldEntry → Tree (.fields fields) →
    List RawField → Prop where
  /-- Entries that reach the end of the schema are not known. -/
  | nil (entries : List FieldEntry) : Gathers [] entries nil (entries.map FieldEntry.field)
  /-- A field decodes the entries that it takes. -/
  | cons {field : Field} {fields : List Field} {entries : List FieldEntry}
      {lists : List (List (Tree (.value field.type)))}
      {slot : Tree (.slot field.arity field.type)} {rest : Tree (.fields fields)}
      {unknown : List RawField}
      (decoded : (entries.filter fun entry => field.takes entry.field).mapM
        (decodeEntry lookup inner field) = .ok lists)
      (filled : fill field.arity lists.flatten = .ok slot)
      (others : Gathers fields (entries.filter fun entry => !field.takes entry.field)
        rest unknown) :
      Gathers (field :: fields) entries (cons slot rest) unknown

variable {lookup inner} {field : Field} {fields : List Field} {entries : List FieldEntry}

/-- An entry is decoded payload by payload. -/
theorem decodeEntry_eq_bind {entry : FieldEntry} :
    decodeEntry lookup inner field entry =
      field.payloads entry.field >>= fun payloads =>
        payloads.mapM fun data => decodeValue lookup inner entry.offset data field.type := by
  rw [decodeEntry, Field.payloads]
  split <;> rfl

theorem findEntry_of_takes {entry : FieldEntry} (taken : field.takes entry.field = true) :
    findEntry lookup inner entry (field :: fields) =
      .here <$> decodeEntry lookup inner field entry := by
  have accepted : field.accepts entry.field.number entry.field.wire = true := taken
  rw [findEntry, if_pos accepted]

theorem findEntry_of_not_takes {entry : FieldEntry} (left : field.takes entry.field = false) :
    findEntry lookup inner entry (field :: fields) =
      .further <$> findEntry lookup inner entry fields := by
  have refused : ¬ field.accepts entry.field.number entry.field.wire = true := by
    simpa [Field.takes] using left
  rw [findEntry, if_neg refused]

/-- What is found for the entries of a buffer splits into what the first field takes and what is
found by the others. -/
theorem mapM_findEntry_split {findings : List (Finding (field :: fields))}
    (found : (entries.mapM fun entry => findEntry lookup inner entry (field :: fields)) =
      .ok findings) :
    (∃ lists, (entries.filter fun entry => field.takes entry.field).mapM
        (decodeEntry lookup inner field) = .ok lists ∧
          findings.flatMap Finding.values = lists.flatten) ∧
      ((entries.filter fun entry => !field.takes entry.field).mapM fun entry =>
        findEntry lookup inner entry fields) = .ok (findings.filterMap Finding.behind) := by
  rw [mapM_eq_ok_iff] at found
  simp only [mapM_eq_ok_iff]
  induction found with
  | nil => exact ⟨⟨[], .nil, rfl⟩, .nil⟩
  | @cons entry finding entries findings head tail ih =>
      obtain ⟨⟨lists, decoded, values_eq⟩, others⟩ := ih
      cases taken : field.takes entry.field with
      | true =>
          rw [findEntry_of_takes taken] at head
          rcases map_eq_ok_iff.mp head with ⟨values, decodedHead, rfl⟩
          simp only [List.filter_cons, taken, if_true, Bool.not_true, Bool.false_eq_true,
            if_false]
          exact ⟨⟨values :: lists, .cons decodedHead decoded,
            congrArg (values ++ ·) values_eq⟩, others⟩
      | false =>
          rw [findEntry_of_not_takes taken] at head
          rcases map_eq_ok_iff.mp head with ⟨found, foundHead, rfl⟩
          simp only [List.filter_cons, taken, if_true, Bool.not_false, Bool.false_eq_true,
            if_false]
          exact ⟨⟨lists, decoded, values_eq⟩, .cons foundHead others⟩

/-- What the first field takes and what is found by the others is found for all entries. -/
theorem mapM_findEntry_join {lists : List (List (Tree (.value field.type)))}
    {rest : List (Finding fields)}
    (decoded : (entries.filter fun entry => field.takes entry.field).mapM
      (decodeEntry lookup inner field) = .ok lists)
    (others : ((entries.filter fun entry => !field.takes entry.field).mapM fun entry =>
      findEntry lookup inner entry fields) = .ok rest) :
    ∃ findings, (entries.mapM fun entry => findEntry lookup inner entry (field :: fields)) =
        .ok findings ∧
      findings.flatMap Finding.values = lists.flatten ∧
      findings.filterMap Finding.behind = rest := by
  simp only [mapM_eq_ok_iff] at decoded others ⊢
  induction entries generalizing lists rest with
  | nil =>
      cases decoded
      cases others
      exact ⟨[], .nil, rfl, rfl⟩
  | cons entry entries ih =>
      cases taken : field.takes entry.field with
      | true =>
          simp only [List.filter_cons, taken, if_true, Bool.not_true, Bool.false_eq_true,
            if_false] at decoded others
          cases decoded with
          | @cons _ values _ lists decodedHead decodedTail =>
              obtain ⟨findings, found, values_eq, behind_eq⟩ := ih decodedTail others
              refine ⟨.here values :: findings, .cons ?_ found, ?_, behind_eq⟩
              · rw [findEntry_of_takes taken, decodedHead]
                rfl
              · exact congrArg (values ++ ·) values_eq
      | false =>
          simp only [List.filter_cons, taken, if_true, Bool.not_false, Bool.false_eq_true,
            if_false] at decoded others
          cases others with
          | @cons _ finding _ rest othersHead othersTail =>
              obtain ⟨findings, found, values_eq, behind_eq⟩ := ih decoded othersTail
              refine ⟨.further finding :: findings, .cons ?_ found, values_eq,
                congrArg (finding :: ·) behind_eq⟩
              rw [findEntry_of_not_takes taken, othersHead]
              rfl

/-- Handing entries to fields finds what the fields find one after the other. -/
theorem gather_eq_ok_iff {fields : List Field} {entries : List FieldEntry}
    {tree : Tree (.fields fields)} {unknown : List RawField} :
    (∃ findings, (entries.mapM fun entry => findEntry lookup inner entry fields) = .ok findings ∧
      gather fields findings = .ok (tree, unknown)) ↔
      Gathers lookup inner fields entries tree unknown := by
  induction fields generalizing entries unknown with
  | nil =>
      have found : (entries.mapM fun entry => findEntry lookup inner entry []) =
          .ok (entries.map fun entry => Finding.unknown entry.field) := by
        simp only [findEntry]
        exact List.mapM_pure
      constructor
      · rintro ⟨findings, success, gathered⟩
        rw [found] at success
        cases success
        cases gathered
        rw [List.map_map]
        exact .nil entries
      · rintro ⟨⟩
        refine ⟨_, found, ?_⟩
        simp [gather, Function.comp_def, Finding.raw]
  | cons field fields ih =>
      constructor
      · rintro ⟨findings, found, gathered⟩
        obtain ⟨⟨lists, decoded, values_eq⟩, others⟩ := mapM_findEntry_split found
        rw [gather, values_eq, bind_eq_ok_iff] at gathered
        rcases gathered with ⟨slot, filled, gathered⟩
        rcases bind_eq_ok_iff.mp gathered with ⟨⟨rest, unknownRest⟩, gatheredRest, same⟩
        cases same
        exact .cons decoded filled (ih.mp ⟨_, others, gatheredRest⟩)
      · rintro (_ | ⟨decoded, filled, others⟩)
        rcases ih.mpr others with ⟨rest, othersFound, gatheredRest⟩
        obtain ⟨findings, found, values_eq, behind_eq⟩ := mapM_findEntry_join decoded othersFound
        refine ⟨findings, found, ?_⟩
        rw [gather, values_eq, behind_eq, filled]
        simp only [gatheredRest]
        rfl

/-- A message is read from a buffer when all of the buffer can be read and the fields of the
message are found in it. -/
theorem decodeMessage_eq_ok_iff {admits : UInt32 → WireType → Bool} {kind : Kind}
    {bytes : List UInt8} {body : Message kind} :
    decodeMessage lookup admits inner kind bytes = .ok body ↔
      ∃ entries fields unknown, fieldEntries admits bytes = entries.map .ok ∧
        Gathers lookup inner kind.fields entries fields unknown ∧
        body = message fields unknown := by
  rw [decodeMessage, bind_eq_ok_iff]
  constructor
  · rintro ⟨findings, found, gathered⟩
    rcases mapM_bind_eq_ok_iff.mp found with ⟨entries, entries_eq, found⟩
    rcases bind_eq_ok_iff.mp gathered with ⟨⟨fields, unknown⟩, success, same⟩
    cases same
    exact ⟨entries, fields, unknown, entries_eq,
      gather_eq_ok_iff.mp ⟨findings, found, success⟩, rfl⟩
  · rintro ⟨entries, fields, unknown, entries_eq, gathers, rfl⟩
    rcases gather_eq_ok_iff.mpr gathers with ⟨findings, found, gathered⟩
    refine ⟨findings, mapM_bind_eq_ok_iff.mpr ⟨entries, entries_eq, found⟩, ?_⟩
    rw [gathered]
    rfl

end Tree

end KotlinMetadata
