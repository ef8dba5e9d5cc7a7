import KotlinMetadata.Proofs.Tree.Written
import KotlinMetadata.Proofs.Tree.WellFormed

/-!
# How deep a decoder goes

A decoder that may enter `levels` levels of messages finds no tree with more
of them, and what it finds is well formed, whatever the bytes are; each of its
names was looked up.  With more levels it finds the same, values and faults
alike, unless it was stopped by the limit.  So if more levels lead to a tree
that is too high, the limit is what stops it.
-/

namespace KotlinMetadata.Tree

open Wire

/-- How the messages inside a message are read, if `levels` levels of them may be entered. -/
def decodeInner (lookup : NameLookup) :
    Nat → (kind : Kind) → List UInt8 → Except PayloadError (Message kind)
  | 0 => fun _ _ => .error (.nestedTooDeep nestingLimit 0)
  | levels + 1 => decode lookup levels

/-- Which fields of a message are admitted, if `levels` levels of messages inside it may be
entered. -/
def admitsAt : Nat → Kind → UInt32 → WireType → Bool
  | 0, kind => fun number wire => !kind.nests number wire
  | _ + 1, _ => fun _ _ => true

/-- All levels are read alike. -/
theorem decode_eq_decodeMessage (lookup : NameLookup) (levels : Nat) (kind : Kind)
    (bytes : List UInt8) :
    decode lookup levels kind bytes =
      decodeMessage lookup (admitsAt levels kind) (decodeInner lookup levels) kind bytes := by
  cases levels <;> rfl

/-! ## What is found -/

section

variable {lookup : NameLookup}
  {inner : (kind : Kind) → List UInt8 → Except PayloadError (Message kind)}

/-- The values that a field holds were decoded, each from a payload. -/
theorem exists_decodeValue_of_mem_held {field : Field} {entries : List FieldEntry}
    {lists : List (List (Tree (.value field.type)))} {slot : Tree (.slot field.arity field.type)}
    (decoded : entries.mapM (decodeEntry lookup inner field) = .ok lists)
    (filled : fill field.arity lists.flatten = .ok slot) {value : Tree (.value field.type)}
    (mem : value ∈ slot.held) :
    ∃ offset payload, decodeValue lookup inner offset payload field.type = .ok value := by
  rcases List.mem_flatten.mp (mem_of_mem_held_of_fill filled mem) with ⟨values, valuesMem, valueMem⟩
  obtain ⟨entry, _, entryDecoded⟩ := exists_of_mem_mapM decoded valuesMem
  rw [decodeEntry_eq_bind, bind_eq_ok_iff] at entryDecoded
  rcases entryDecoded with ⟨payloads, _, payloadsDecoded⟩
  obtain ⟨payload, _, read⟩ := exists_of_mem_mapM payloadsDecoded valueMem
  exact ⟨entry.offset, payload, read⟩

theorem wellFormed_of_decodeValue {levels : Nat}
    (onInner : ∀ {kind : Kind} {bytes : List UInt8} {body : Message kind},
      inner kind bytes = .ok body → body.WellFormed ∧ body.height ≤ levels)
    {offset : Nat} {data : List UInt8} {type : ValueType} {value : Tree (.value type)}
    (read : decodeValue lookup inner offset data type = .ok value) :
    value.WellFormed ∧ value.height ≤ levels := by
  cases type with
  | leaf scalar =>
      rcases map_eq_ok_iff.mp read with ⟨held, _, rfl⟩
      exact ⟨trivial, Nat.zero_le levels⟩
  | message kind => exact onInner read

/-- The fields of a message are as good as the messages read inside. -/
theorem Gathers.wellFormed {levels : Nat}
    (onInner : ∀ {kind : Kind} {bytes : List UInt8} {body : Message kind},
      inner kind bytes = .ok body → body.WellFormed ∧ body.height ≤ levels)
    {fields : List Field} {entries : List FieldEntry} {tree : Tree (.fields fields)}
    {unknown : List RawField} (gathers : Gathers lookup inner fields entries tree unknown) :
    tree.WellFormed ∧ tree.height ≤ levels := by
  induction gathers with
  | nil entries => exact ⟨trivial, Nat.zero_le levels⟩
  | @cons field fields entries lists slot rest unknown decoded filled others ih =>
      have each : ∀ value ∈ slot.held, value.WellFormed ∧ value.height ≤ levels := by
        intro value mem
        obtain ⟨offset, payload, read⟩ := exists_decodeValue_of_mem_held decoded filled mem
        exact wellFormed_of_decodeValue onInner read
      constructor
      · exact ⟨wellFormed_slot_iff.mpr fun value mem => (each value mem).1, ih.1⟩
      · exact Nat.max_le.mpr ⟨height_slot_le_iff.mpr fun value mem => (each value mem).2, ih.2⟩

/-- The fields that a message does not know stand in its buffer and are taken by none of its
fields. -/
theorem Gathers.unknown_not_taken {fields : List Field} {entries : List FieldEntry}
    {tree : Tree (.fields fields)} {unknown : List RawField}
    (gathers : Gathers lookup inner fields entries tree unknown) {raw : RawField}
    (mem : raw ∈ unknown) :
    (∃ entry ∈ entries, entry.field = raw) ∧ ∀ field ∈ fields, field.takes raw = false := by
  induction gathers with
  | nil entries => exact ⟨List.mem_map.mp mem, fun field absurd => nomatch absurd⟩
  | @cons field fields entries lists slot rest unknown decoded filled others ih =>
      obtain ⟨⟨entry, entryMem, rfl⟩, later⟩ := ih mem
      rcases List.mem_filter.mp entryMem with ⟨entryMem, refused⟩
      constructor
      · exact ⟨entry, entryMem, rfl⟩
      · intro other otherMem
        rcases List.mem_cons.mp otherMem with rfl | otherMem
        · simpa using refused
        · exact later other otherMem

/-- A message is as good as the messages read inside. -/
theorem wellFormed_of_decodeMessage {levels : Nat}
    (onInner : ∀ {kind : Kind} {bytes : List UInt8} {body : Message kind},
      inner kind bytes = .ok body → body.WellFormed ∧ body.height ≤ levels)
    {admits : UInt32 → WireType → Bool} {kind : Kind} {bytes : List UInt8} {body : Message kind}
    (decoded : decodeMessage lookup admits inner kind bytes = .ok body) :
    body.WellFormed ∧ body.height ≤ levels + 1 := by
  obtain ⟨entries, fields, unknown, entries_eq, gathers, rfl⟩ :=
    decodeMessage_eq_ok_iff.mp decoded
  obtain ⟨wellFormed, height_le⟩ := gathers.wellFormed onInner
  constructor
  case right => exact Nat.succ_le_succ height_le
  constructor
  · exact wellFormed
  intro raw mem
  obtain ⟨⟨entry, entryMem, rfl⟩, refused⟩ := gathers.unknown_not_taken mem
  have stands : .ok entry ∈ fieldEntries admits bytes := by
    rw [entries_eq]
    exact List.mem_map_of_mem entryMem
  exact ⟨(valid_of_mem_fieldEntriesFrom stands).1, Kind.field?_eq_none_iff.mpr refused⟩

end

/-- A decoder that may enter `levels` levels finds well-formed messages with no more levels inside,
whatever the bytes are. -/
theorem wellFormed_of_decode {lookup : NameLookup} {levels : Nat} {kind : Kind}
    {bytes : List UInt8} {body : Message kind}
    (decoded : decode lookup levels kind bytes = .ok body) :
    body.WellFormed ∧ body.height ≤ levels + 1 := by
  induction levels generalizing kind bytes with
  | zero =>
      refine wellFormed_of_decodeMessage (fun absurd => ?_) decoded
      cases absurd
  | succ levels ih => exact wellFormed_of_decodeMessage ih decoded

/-! ## Where names come from -/

/-- Every name of a tree was found under some number. -/
def LookedUp (lookup : NameLookup) {part : Part} (tree : Tree part) : Prop :=
  ∀ name ∈ tree.names, ∃ index, lookup name.1 index = .ok name.2

section

variable {lookup : NameLookup}
  {inner : (kind : Kind) → List UInt8 → Except PayloadError (Message kind)}

theorem lookedUp_of_decodeValue
    (onInner : ∀ {kind : Kind} {bytes : List UInt8} {body : Message kind},
      inner kind bytes = .ok body → body.LookedUp lookup)
    {offset : Nat} {data : List UInt8} {type : ValueType} {value : Tree (.value type)}
    (read : decodeValue lookup inner offset data type = .ok value) : value.LookedUp lookup := by
  cases type with
  | leaf scalar =>
      rcases map_eq_ok_iff.mp read with ⟨held, leafRead, rfl⟩
      intro name mem
      cases scalar with
      | name role =>
          rw [List.mem_singleton.mp mem]
          exact ⟨_, leafRead⟩
      | _ => cases mem
  | message kind => exact onInner read

theorem Gathers.lookedUp
    (onInner : ∀ {kind : Kind} {bytes : List UInt8} {body : Message kind},
      inner kind bytes = .ok body → body.LookedUp lookup)
    {fields : List Field} {entries : List FieldEntry} {tree : Tree (.fields fields)}
    {unknown : List RawField} (gathers : Gathers lookup inner fields entries tree unknown) :
    tree.LookedUp lookup := by
  induction gathers with
  | nil entries => exact fun _ mem => nomatch mem
  | @cons field fields entries lists slot rest unknown decoded filled others ih =>
      intro name mem
      rcases List.mem_append.mp mem with mem | mem
      · rw [names_slot] at mem
        rcases List.mem_flatMap.mp mem with ⟨value, valueMem, mem⟩
        obtain ⟨offset, payload, read⟩ := exists_decodeValue_of_mem_held decoded filled valueMem
        exact lookedUp_of_decodeValue onInner read name mem
      · exact ih name mem

end

/-- Every name of a decoded message was found under some number. -/
theorem lookedUp_of_decode {lookup : NameLookup} {levels : Nat} {kind : Kind} {bytes : List UInt8}
    {body : Message kind} (decoded : decode lookup levels kind bytes = .ok body) :
    body.LookedUp lookup := by
  induction levels generalizing kind bytes with
  | zero =>
      rcases decodeMessage_eq_ok_iff.mp decoded with ⟨_, _, _, _, gathers, rfl⟩
      refine gathers.lookedUp fun absurd => ?_
      cases absurd
  | succ levels ih =>
      rcases decodeMessage_eq_ok_iff.mp decoded with ⟨_, _, _, _, gathers, rfl⟩
      exact gathers.lookedUp ih

/-! ## What more levels change -/

section

variable {lookup : NameLookup}
  {inner innerFull : (kind : Kind) → List UInt8 → Except PayloadError (Message kind)}

theorem cutShort_decodeEntry
    (onInner : ∀ kind bytes, CutShort (inner kind bytes) (innerFull kind bytes)) (field : Field)
    (entry : FieldEntry) :
    CutShort (decodeEntry lookup inner field entry) (decodeEntry lookup innerFull field entry) := by
  rw [decodeEntry_eq_bind, decodeEntry_eq_bind]
  refine (CutShort.refl _).bind fun payloads => .mapM (fun data => ?_) payloads
  cases field.type with
  | leaf scalar => exact .refl _
  | message kind => exact onInner kind data

theorem cutShort_findEntry
    (onInner : ∀ kind bytes, CutShort (inner kind bytes) (innerFull kind bytes))
    (entry : FieldEntry) (fields : List Field) :
    CutShort (findEntry lookup inner entry fields) (findEntry lookup innerFull entry fields) := by
  induction fields with
  | nil => exact .refl _
  | cons field fields ih =>
      rw [findEntry, findEntry]
      split
      · exact (cutShort_decodeEntry onInner field entry).map _
      · exact ih.map _

theorem cutShort_decodeMessage {admits admitsFull : UInt32 → WireType → Bool}
    (fewer : ∀ number wire, admits number wire = true → admitsFull number wire = true)
    (onInner : ∀ kind bytes, CutShort (inner kind bytes) (innerFull kind bytes)) (kind : Kind)
    (bytes : List UInt8) :
    CutShort (decodeMessage lookup admits inner kind bytes)
      (decodeMessage lookup admitsFull innerFull kind bytes) := by
  have each : ∀ entry, CutShort (findEntry lookup inner entry kind.fields)
      (findEntry lookup innerFull entry kind.fields) :=
    fun entry => cutShort_findEntry onInner entry kind.fields
  have found := cutShort_fieldEntriesFrom fewer each bytes.length (.ofBytes bytes)
  exact found.bind fun findings => .refl _

end

/-- One more level changes nothing, unless the limit stopped the decoder. -/
theorem cutShort_decode_succ (lookup : NameLookup) (levels : Nat) (kind : Kind)
    (bytes : List UInt8) :
    CutShort (decode lookup levels kind bytes) (decode lookup (levels + 1) kind bytes) := by
  induction levels generalizing kind bytes with
  | zero =>
      exact cutShort_decodeMessage (fun _ _ _ => rfl) (fun _ _ => .stopped 0) kind bytes
  | succ levels ih => exact cutShort_decodeMessage (fun _ _ admitted => admitted) ih kind bytes

/-- More levels change nothing, unless the limit stopped the decoder. -/
theorem cutShort_decode (lookup : NameLookup) {levels more : Nat} (le : levels ≤ more)
    (kind : Kind) (bytes : List UInt8) :
    CutShort (decode lookup levels kind bytes) (decode lookup more kind bytes) := by
  induction le with
  | refl => exact .refl _
  | step _ ih => exact ih.trans (cutShort_decode_succ lookup _ kind bytes)

/-- If more levels lead to a message that is too high, the limit stops the decoder. -/
theorem nestedTooDeep_of_height {lookup : NameLookup} {levels more : Nat} (le : levels ≤ more)
    {kind : Kind} {bytes : List UInt8} {body : Message kind}
    (decoded : decode lookup more kind bytes = .ok body) (tooHigh : levels + 1 < body.height) :
    ∃ offset, decode lookup levels kind bytes = .error (.nestedTooDeep nestingLimit offset) := by
  rcases cutShort_decode lookup le kind bytes with same | stopped
  · rw [decoded] at same
    exact absurd (wellFormed_of_decode same).2 (Nat.not_le.mpr tooHigh)
  · exact stopped

end KotlinMetadata.Tree
