import KotlinMetadata.Proofs.Tree.RoundTrip

/-!
# Fields in another order

What a message holds depends on the order of its fields with one number, not
on how fields with different numbers stand among each other.  A list of
varints may moreover come in any chunks, as long as its elements stay in
order.  So every rearrangement of a buffer that is read is read too, and the
same message is found; only the fields that it does not know follow the new
order.
-/

namespace KotlinMetadata

open Wire

/-- The number that a varint stands for in a list. -/
def int32OfVarint (group : List UInt8) : Int32 :=
  int32OfWord (decodeVarint group)

/-- Fields that hold the elements of a list one after the other: each of them holds one element, or
a packed chunk of any size. -/
inductive Chunked (number : UInt32) : List RawField → List Int32 → Prop where
  | nil : Chunked number [] []
  | single {group : List UInt8} {raws : List RawField} {elements : List Int32}
      (carries : WireType.varint.Carries group) (rest : Chunked number raws elements) :
      Chunked number ({ number, wire := .varint, data := group } :: raws)
        (int32OfVarint group :: elements)
  | packed {groups : List (List UInt8)} {raws : List RawField} {elements : List Int32}
      (carries : ∀ group ∈ groups, WireType.varint.Carries group)
      (rest : Chunked number raws elements) :
      Chunked number (.bytes number groups.flatten :: raws) (groups.map int32OfVarint ++ elements)

/-- Whether a field of a buffer holds elements of a list of varints. -/
def Kind.isChunk (kind : Kind) (raw : RawField) : Bool :=
  (kind.field? raw.number raw.wire).any Field.packable

/-- The fields of one buffer rearranged in another. -/
structure Rearranged (kind : Kind) (before after : List RawField) : Prop where
  /-- At each number, all fields but the chunks of lists stand in their old order. -/
  kept : ∀ number, numbered number (after.filter fun raw => !kind.isChunk raw) =
    numbered number (before.filter fun raw => !kind.isChunk raw)
  /-- The chunks of each list hold the same elements. -/
  elements : ∀ field ∈ kind.fields, field.packable = true → ∀ elements,
    Chunked field.number (before.filter field.takes) elements →
      Chunked field.number (after.filter field.takes) elements

section

variable {kind : Kind} {field : Field} {raw : RawField}

theorem Kind.isChunk_of_takes (mem : field ∈ kind.fields) (taken : field.takes raw = true) :
    kind.isChunk raw = field.packable := by
  rw [isChunk, Kind.field?_of_takes mem taken, Option.any_some]

/-- What a field takes has its number. -/
theorem Field.filter_takes_numbered (field : Field) (raws : List RawField) :
    (numbered field.number raws).filter field.takes = raws.filter field.takes := by
  rw [numbered, List.filter_filter]
  apply List.filter_congr
  intro raw _
  cases taken : field.takes raw with
  | false => rfl
  | true => simp [Field.number_of_takes taken]

/-- What a field takes that is no list of varints is no chunk. -/
theorem filter_takes_not_isChunk (mem : field ∈ kind.fields) (single : field.packable = false)
    (raws : List RawField) :
    (raws.filter fun raw => !kind.isChunk raw).filter field.takes = raws.filter field.takes := by
  rw [List.filter_filter]
  apply List.filter_congr
  intro raw _
  cases taken : field.takes raw with
  | false => rfl
  | true => rw [Kind.isChunk_of_takes mem taken, single]; rfl

theorem Field.wire_of_packable (packable : field.packable = true) :
    field.type.wire = .varint := by
  rw [Field.packable] at packable
  split at packable
  · exact of_decide_eq_true packable
  · cases packable

/-- A list of varints holds no messages. -/
theorem Kind.nests_of_isChunk (chunk : kind.isChunk raw = true) :
    kind.nests raw.number raw.wire = false := by
  rw [isChunk, Option.any_eq_true] at chunk
  rcases chunk with ⟨field, found, packable⟩
  have wire := Field.wire_of_packable packable
  rw [nests, found, Option.any_some]
  cases type : field.type with
  | leaf scalar => rfl
  | message kind =>
      rw [type] at wire
      cases wire

namespace Rearranged

variable {before after : List RawField}

/-- Fields that keep their order at each number are rearranged. -/
theorem of_numbered (same : ∀ number, numbered number after = numbered number before) :
    Rearranged kind before after where
  kept number := by
    have swap : ∀ raws : List RawField,
        numbered number (raws.filter fun raw => !kind.isChunk raw) =
          (numbered number raws).filter fun raw => !kind.isChunk raw := by
      intro raws
      simp only [numbered, List.filter_filter, Bool.and_comm]
    rw [swap, same, swap]
  elements field _ _ elements chunked := by
    rwa [← field.filter_takes_numbered, same, field.filter_takes_numbered]

/-- A field that is no list of varints takes the same from both. -/
theorem filter_takes (rearranged : Rearranged kind before after) (mem : field ∈ kind.fields)
    (single : field.packable = false) :
    after.filter field.takes = before.filter field.takes := by
  rw [← filter_takes_not_isChunk mem single, ← field.filter_takes_numbered, rearranged.kept,
    field.filter_takes_numbered, filter_takes_not_isChunk mem single]

/-- All fields but the chunks of lists stand in both. -/
theorem mem_of_not_isChunk (rearranged : Rearranged kind before after) (mem : raw ∈ after)
    (other : kind.isChunk raw = false) : raw ∈ before := by
  have kept : raw ∈ numbered raw.number (after.filter fun raw => !kind.isChunk raw) := by
    simp [numbered, mem, other]
  rw [rearranged.kept] at kept
  exact (List.mem_filter.mp (List.mem_filter.mp kept).1).1

end Rearranged

end

namespace Tree

/-! ## Values of a field -/

section

variable {lookup : NameLookup}
  {inner : (kind : Kind) → List UInt8 → Except PayloadError (Message kind)} {field : Field}

/-- Where a value stands shows in faults only. -/
theorem decodeValue_eq_ok_iff_at_zero {offset : Nat} {data : List UInt8} {type : ValueType}
    {value : Tree (.value type)} :
    decodeValue lookup inner offset data type = .ok value ↔
      decodeValue lookup inner 0 data type = .ok value := by
  cases type with
  | message kind => rfl
  | leaf scalar =>
      cases scalar with
      | text =>
          simp only [decodeValue, decodeLeaf]
          cases String.fromUTF8? data.toByteArray <;> simp [Functor.map, Except.map]
      | _ => rfl

/-- The values of a field are found payload by payload, wherever the payloads stand. -/
theorem mapM_decodeEntry_iff {entries : List FieldEntry}
    {values : List (Tree (.value field.type))} :
    (∃ lists, entries.mapM (decodeEntry lookup inner field) = .ok lists ∧
      lists.flatten = values) ↔
      ∃ payloads, (entries.map FieldEntry.field).mapM field.payloads = .ok payloads ∧
        (payloads.flatten.mapM fun data => decodeValue lookup inner 0 data field.type) =
          .ok values := by
  have one : ∀ {entry : FieldEntry} {values : List (Tree (.value field.type))},
      decodeEntry lookup inner field entry = .ok values ↔
        ∃ payloads, field.payloads entry.field = .ok payloads ∧
          (payloads.mapM fun data => decodeValue lookup inner 0 data field.type) =
            .ok values := by
    intro entry values
    simp only [decodeEntry_eq_bind, bind_eq_ok_iff, mapM_eq_ok_iff,
      @decodeValue_eq_ok_iff_at_zero _ _ entry.offset]
  induction entries generalizing values with
  | nil => simp [pure, Except.pure]
  | cons entry entries ih =>
      constructor
      · rintro ⟨lists, decoded, rfl⟩
        obtain ⟨first, rest, head, tail, rfl⟩ := mapM_cons_eq_ok_iff.mp decoded
        obtain ⟨payloads, found, read⟩ := one.mp head
        obtain ⟨others, othersFound, othersRead⟩ := ih.mp ⟨rest, tail, rfl⟩
        exact ⟨payloads :: others, mapM_cons_eq_ok_iff.mpr ⟨_, _, found, othersFound, rfl⟩,
          mapM_append_eq_ok_iff.mpr ⟨_, _, read, othersRead, rfl⟩⟩
      · rintro ⟨lists, found, read⟩
        obtain ⟨payloads, others, head, tail, rfl⟩ := mapM_cons_eq_ok_iff.mp found
        obtain ⟨first, rest, readHead, readTail, rfl⟩ := mapM_append_eq_ok_iff.mp read
        obtain ⟨restLists, restDecoded, rfl⟩ := ih.mpr ⟨others, tail, readTail⟩
        exact ⟨first :: restLists, mapM_cons_eq_ok_iff.mpr
          ⟨_, _, one.mpr ⟨payloads, head, readHead⟩, restDecoded, rfl⟩, rfl⟩

end

/-! ## Lists of varints -/

section

variable {field : Field}

theorem payloads_single (number : UInt32) (group : List UInt8) :
    field.payloads { number, wire := .varint, data := group } = .ok [group] := by
  simp [Field.payloads]

theorem payloads_packed (packable : field.packable = true) (number : UInt32) (data : List UInt8) :
    field.payloads (.bytes number data) = varints data := by
  simp [Field.payloads, packable, RawField.bytes]

/-- A list of varints holds the elements that are found in it, one payload each. -/
theorem chunked_iff (packable : field.packable = true) {raws : List RawField}
    (taken : ∀ raw ∈ raws, field.takes raw = true) (valid : ∀ raw ∈ raws, raw.Valid)
    {elements : List Int32} :
    Chunked field.number raws elements ↔
      ∃ payloads, raws.mapM field.payloads = .ok payloads ∧
        payloads.flatten.map int32OfVarint = elements := by
  constructor
  · intro chunked
    clear taken valid
    induction chunked with
    | nil => exact ⟨[], rfl, rfl⟩
    | @single group raws elements carries rest ih =>
        obtain ⟨payloads, found, rfl⟩ := ih
        exact ⟨[group] :: payloads,
          mapM_cons_eq_ok_iff.mpr ⟨_, _, payloads_single _ _, found, rfl⟩, rfl⟩
    | @packed groups raws elements carries rest ih =>
        obtain ⟨payloads, found, rfl⟩ := ih
        have head : field.payloads (.bytes field.number groups.flatten) = .ok groups := by
          rw [payloads_packed packable]
          exact varints_eq_ok_iff.mpr ⟨rfl, carries⟩
        refine ⟨groups :: payloads, mapM_cons_eq_ok_iff.mpr ⟨_, _, head, found, rfl⟩, ?_⟩
        rw [List.flatten_cons, List.map_append]
  · rintro ⟨payloads, found, rfl⟩
    induction raws generalizing payloads with
    | nil =>
        cases found
        exact .nil
    | cons raw raws ih =>
        rw [List.forall_mem_cons] at taken valid
        obtain ⟨groups, payloads, head, tail, rfl⟩ := mapM_cons_eq_ok_iff.mp found
        have rest := ih taken.2 valid.2 payloads tail
        have number_eq := Field.number_of_takes taken.1
        have accepted := taken.1
        rcases raw with ⟨number, wire, data⟩
        obtain rfl : number = field.number := number_eq
        simp only [Field.takes, Field.accepts, Field.wire_of_packable packable, packable,
          decide_true, Bool.true_and, Bool.or_eq_true, decide_eq_true_eq] at accepted
        rw [List.flatten_cons, List.map_append]
        rcases accepted with rfl | rfl
        · rw [payloads_single] at head
          cases head
          exact .single valid.1.carries rest
        · have whole : varints data = .ok groups := (payloads_packed packable _ _).symm.trans head
          obtain ⟨rfl, carries⟩ := varints_eq_ok_iff.mp whole
          exact .packed carries rest

/-- Whether values of a type are held as 32-bit integers. -/
def holdsInt32 : ValueType → Bool
  | .leaf .int32 | .leaf (.name _) => true
  | _ => false

/-- Every list of varints holds 32-bit integers. -/
theorem holdsInt32_of_packable (kind : Kind) :
    ∀ field ∈ kind.fields, field.packable = true → holdsInt32 field.type = true := by
  cases kind <;> decide

variable {lookup : NameLookup}
  {inner : (kind : Kind) → List UInt8 → Except PayloadError (Message kind)}

/-- A value that is held as an integer is as good as what is written for this integer. -/
theorem decodeValue_of_holdsInt32 {type : ValueType} (holds : holdsInt32 type = true)
    (group : List UInt8) :
    decodeValue lookup inner 0 group type =
      decodeValue lookup inner 0 (encodeVarint (wordOfInt32 (int32OfVarint group))) type := by
  have same : int32OfWord (decodeVarint (encodeVarint (wordOfInt32 (int32OfVarint group)))) =
      int32OfWord (decodeVarint group) := by
    rw [decodeVarint_encodeVarint, int32OfWord_wordOfInt32, int32OfVarint]
  unfold holdsInt32 at holds
  split at holds
  · simp only [decodeValue, decodeLeaf, same]
  · simp only [decodeValue, decodeLeaf, same]
  · cases holds

/-- The values of a list depend on its elements only. -/
theorem mapM_decodeValue_congr {type : ValueType} (holds : holdsInt32 type = true)
    {payloads others : List (List UInt8)}
    (same : payloads.map int32OfVarint = others.map int32OfVarint) :
    (payloads.mapM fun data => decodeValue lookup inner 0 data type) =
      others.mapM fun data => decodeValue lookup inner 0 data type := by
  have byElements : ∀ payloads : List (List UInt8),
      (payloads.mapM fun data => decodeValue lookup inner 0 data type) =
        (payloads.map int32OfVarint).mapM fun element =>
          decodeValue lookup inner 0 (encodeVarint (wordOfInt32 element)) type := by
    intro payloads
    rw [List.mapM_map]
    exact congrArg payloads.mapM (funext fun data => decodeValue_of_holdsInt32 holds data)
  rw [byElements, same, ← byElements]

end

/-! ## Fields of a message -/

section

variable {lookup : NameLookup}
  {inner : (kind : Kind) → List UInt8 → Except PayloadError (Message kind)}

variable (lookup inner) in
/-- Each of some fields finds in other entries the values that it finds in these. -/
def FindsSame (fields : List Field) (entries others : List FieldEntry) : Prop :=
  ∀ field ∈ fields, ∀ lists,
    (entries.filter fun entry => field.takes entry.field).mapM (decodeEntry lookup inner field) =
      .ok lists →
    ∃ otherLists,
      (others.filter fun entry => field.takes entry.field).mapM
        (decodeEntry lookup inner field) = .ok otherLists ∧ otherLists.flatten = lists.flatten

theorem FindsSame.tail {field : Field} {fields : List Field} {entries others : List FieldEntry}
    (sound : SoundFields (field :: fields))
    (finds : FindsSame lookup inner (field :: fields) entries others) :
    FindsSame lookup inner fields (entries.filter fun entry => !field.takes entry.field)
      (others.filter fun entry => !field.takes entry.field) := by
  intro other mem
  rw [filter_takes_of_mem_tail sound mem, filter_takes_of_mem_tail sound mem]
  exact finds other (List.mem_cons_of_mem field mem)

/-- What no field takes is what is not known. -/
theorem Gathers.unknown_eq {fields : List Field} {entries : List FieldEntry}
    {tree : Tree (.fields fields)} {unknown : List RawField}
    (gathers : Gathers lookup inner fields entries tree unknown) :
    unknown = (entries.map FieldEntry.field).filter (leftOver fields) := by
  induction gathers with
  | nil entries => exact (filter_leftOver_nil _).symm
  | cons decoded filled others ih => rw [ih, filter_leftOver_cons]

/-- The fields of a message are found in all entries where each of them finds the same. -/
theorem Gathers.of_findsSame {fields : List Field} {entries others : List FieldEntry}
    {tree : Tree (.fields fields)} {unknown : List RawField} (sound : SoundFields fields)
    (gathers : Gathers lookup inner fields entries tree unknown)
    (finds : FindsSame lookup inner fields entries others) :
    Gathers lookup inner fields others tree
      ((others.map FieldEntry.field).filter (leftOver fields)) := by
  induction gathers generalizing others with
  | nil entries =>
      rw [filter_leftOver_nil]
      exact .nil others
  | @cons field fields entries lists slot rest unknown decoded filled behind ih =>
      obtain ⟨otherLists, otherDecoded, same⟩ := finds field List.mem_cons_self lists decoded
      rw [← same] at filled
      rw [filter_leftOver_cons]
      exact .cons otherDecoded filled (ih sound.tail (finds.tail sound))

/-- The fields of a message find the same in a buffer that is rearranged. -/
theorem findsSame_of_rearranged {kind : Kind} {entries others : List FieldEntry}
    (rearranged : Rearranged kind (entries.map FieldEntry.field) (others.map FieldEntry.field))
    (valid : ∀ entry ∈ entries, entry.field.Valid)
    (otherValid : ∀ entry ∈ others, entry.field.Valid) :
    FindsSame lookup inner kind.fields entries others := by
  intro field mem lists decoded
  rw [mapM_decodeEntry_iff, map_filter_takes]
  obtain ⟨payloads, found, read⟩ := mapM_decodeEntry_iff.mp ⟨lists, decoded, rfl⟩
  rw [map_filter_takes] at found
  cases packable : field.packable with
  | false =>
      rw [rearranged.filter_takes mem packable]
      exact ⟨payloads, found, read⟩
  | true =>
      have chunks : ∀ entries : List FieldEntry, (∀ entry ∈ entries, entry.field.Valid) →
          ∀ raw ∈ (entries.map FieldEntry.field).filter field.takes,
            field.takes raw = true ∧ raw.Valid := by
        intro entries valid raw rawMem
        rcases List.mem_filter.mp rawMem with ⟨rawMem, taken⟩
        exact ⟨taken, List.forall_mem_map.mpr valid raw rawMem⟩
      have chunked := (chunked_iff packable (fun raw mem => (chunks entries valid raw mem).1)
        fun raw mem => (chunks entries valid raw mem).2).mpr ⟨payloads, found, rfl⟩
      obtain ⟨otherPayloads, otherFound, same⟩ :=
        (chunked_iff packable (fun raw mem => (chunks others otherValid raw mem).1)
          fun raw mem => (chunks others otherValid raw mem).2).mp
            (rearranged.elements field mem packable _ chunked)
      refine ⟨otherPayloads, otherFound, ?_⟩
      rw [mapM_decodeValue_congr (holdsInt32_of_packable kind field mem packable) same]
      exact read

end

/-- A message is found in every rearrangement of its buffer, up to the order of the fields that it
does not know. -/
theorem decode_rearranged {lookup : NameLookup} {levels : Nat} {kind : Kind} {bytes : List UInt8}
    {body : Message kind} (decoded : decode lookup levels kind bytes = .ok body) :
    ∃ spellings fields, Spelling.buffer spellings = bytes ∧
      body = message fields ((spellings.map Spelling.field).filter (leftOver kind.fields)) ∧
      ∀ others : List Spelling,
        Rearranged kind (spellings.map Spelling.field) (others.map Spelling.field) →
          decode lookup levels kind (Spelling.buffer others) =
            .ok (message fields ((others.map Spelling.field).filter (leftOver kind.fields))) := by
  rw [decode_eq_decodeMessage, decodeMessage_eq_ok_iff] at decoded
  rcases decoded with ⟨entries, fields, unknown, entries_eq, gathers, rfl⟩
  obtain ⟨⟨spellings, buffer_eq, fields_eq⟩, admitted⟩ :=
    exists_fieldEntries_iff.mp ⟨entries, rfl, entries_eq⟩
  refine ⟨spellings, fields, buffer_eq, by rw [gathers.unknown_eq, fields_eq], ?_⟩
  intro others rearranged
  rw [decode_eq_decodeMessage, decodeMessage_eq_ok_iff]
  rw [fields_eq] at rearranged
  have otherAdmitted : ∀ raw ∈ others.map Spelling.field,
      admitsAt levels kind raw.number raw.wire = true := by
    intro raw mem
    cases chunk : kind.isChunk raw with
    | false => exact admitted raw (rearranged.mem_of_not_isChunk mem chunk)
    | true =>
        cases levels with
        | zero => simp [admitsAt, Kind.nests_of_isChunk chunk]
        | succ levels => rfl
  obtain ⟨otherEntries, otherFields_eq, otherEntries_eq⟩ :=
    exists_fieldEntries_iff.mpr ⟨⟨others, rfl, rfl⟩, otherAdmitted⟩
  have valid : ∀ spellings : List Spelling, ∀ raw ∈ spellings.map Spelling.field, raw.Valid :=
    fun spellings => List.forall_mem_map.mpr fun spelling _ => spelling.valid
  rw [← otherFields_eq] at rearranged ⊢
  have finds : FindsSame lookup (decodeInner lookup levels) kind.fields entries otherEntries :=
    findsSame_of_rearranged rearranged (List.forall_mem_map.mp (fields_eq ▸ valid spellings))
      (List.forall_mem_map.mp (otherFields_eq ▸ valid others))
  exact ⟨otherEntries, fields, _, otherEntries_eq,
    gathers.of_findsSame kind.soundFields finds, rfl⟩

/-- The fields of a type parameter with three bounds. -/
def boundedSample : Tree (.fields Kind.typeParameter.fields) :=
  cons (exactly (leaf .int32 (5 : Int32))) <| cons (exactly (leaf (.name .plain) "T")) <|
    cons absent <| cons (present (leaf .int32 (2 : Int32))) <| cons empty <|
      cons (ofList ([1, 300, 7].map fun bound : Int32 => leaf .int32 bound)) <| cons empty nil

/-- A buffer with these fields, two of the bounds in one chunk. -/
def boundedBefore : List RawField :=
  [ ⟨1, .varint, [5]⟩, .bytes 6 [1, 0xAC, 2], ⟨4, .varint, [1]⟩, ⟨6, .fixed32, [1, 2, 3, 4]⟩
  , ⟨4, .varint, [2]⟩, ⟨6, .varint, [7]⟩, ⟨2, .varint, [0]⟩, .bytes 9 [] ]

/-- Another one, in other chunks and with a varint that is longer than it needs to be. -/
def boundedAfter : List RawField :=
  [ .bytes 9 [], ⟨4, .varint, [1]⟩, ⟨6, .varint, [1]⟩, ⟨4, .varint, [2]⟩
  , .bytes 6 [0xAC, 2, 0x87, 0], ⟨2, .varint, [0]⟩, ⟨6, .fixed32, [1, 2, 3, 4]⟩, ⟨1, .varint, [5]⟩ ]

theorem rearranged_bounded : Rearranged .typeParameter boundedBefore boundedAfter where
  kept := numbered_eq_of_forall_mem (by decide)
  elements field mem packable elements chunked := by
    have only : ∀ field ∈ Kind.typeParameter.fields, field.packable = true →
        field = .list 6 "upper_bound_ids" .int32 := by decide
    obtain rfl := only field mem packable
    obtain ⟨payloads, found, rfl⟩ := (chunked_iff packable (by decide) (by decide)).mp chunked
    obtain rfl : [[[1], [0xAC, 2]], [[7]]] = payloads := by
      have whole : .ok [[[1], [0xAC, 2]], [[7]]] = Except.ok payloads :=
        (by decide : _ = _).trans found
      exact Except.ok.inj whole
    exact (chunked_iff packable (by decide) (by decide)).mpr
      ⟨[[[1]], [[0xAC, 2], [0x87, 0]]], by decide, by decide⟩

/-- The bounds may come before the required fields, and the variance that counts is the later
one. -/
theorem decode_rearranged_sample :
    let lookup : NameLookup :=
      fun _ index => if index = 0 then .ok "T" else .error (.indexOutOfRange index)
    decode lookup 0 .typeParameter (boundedBefore.flatMap RawField.encode) =
      .ok (message boundedSample [⟨6, .fixed32, [1, 2, 3, 4]⟩, .bytes 9 []]) ∧
    decode lookup 0 .typeParameter (boundedAfter.flatMap RawField.encode) =
      .ok (message boundedSample [.bytes 9 [], ⟨6, .fixed32, [1, 2, 3, 4]⟩]) := by
  intro lookup
  have decoded : decode lookup 0 .typeParameter (boundedBefore.flatMap RawField.encode) =
      .ok (message boundedSample [⟨6, .fixed32, [1, 2, 3, 4]⟩, .bytes 9 []]) := by decide +kernel
  refine ⟨decoded, ?_⟩
  obtain ⟨before, before_eq, beforeFields⟩ :=
    @Spelling.exists_buffer_eq_encode boundedBefore (by decide) (by decide)
  obtain ⟨after, after_eq, afterFields⟩ :=
    @Spelling.exists_buffer_eq_encode boundedAfter (by decide) (by decide)
  obtain ⟨spellings, fields, buffer_eq, body_eq, again⟩ := decode_rearranged decoded
  obtain rfl : before = spellings := Spelling.buffer_injective (before_eq.trans buffer_eq.symm)
  rw [beforeFields] at body_eq again
  have read := again after (afterFields ▸ rearranged_bounded)
  obtain ⟨rfl, -⟩ := message.inj body_eq
  rw [after_eq, afterFields] at read
  exact read

end Tree

end KotlinMetadata
