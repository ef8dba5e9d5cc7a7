import KotlinMetadata.Proofs.Tree.Values
import KotlinMetadata.Proofs.Wire.Sorting

/-!
# How long a written tree can get

The order in which fields are written does not matter for their length, and
neither do the numbers of names, so a bound on the length of a message is
added up along its tree.
-/

namespace KotlinMetadata

open Wire

namespace Wire

/-- Tag and length take ten bytes each at most. -/
theorem RawField.length_encode_le (field : RawField) :
    field.encode.length ≤ 20 + field.data.length := by
  have tag := length_encodeVarint_le (tagWord field.number field.wire)
  have length := length_encodeVarint_le (UInt64.ofNat field.data.length)
  simp only [encode, List.length_append]
  split
  · omega
  · rw [List.length_nil]
    omega

/-- What fields take up at most. -/
def boundOf : List RawField → Nat
  | [] => 0
  | field :: fields => 20 + field.data.length + boundOf fields

theorem boundOf_append (fields others : List RawField) :
    boundOf (fields ++ others) = boundOf fields + boundOf others := by
  induction fields with
  | nil => exact (Nat.zero_add _).symm
  | cons field fields ih =>
      rw [List.cons_append, boundOf, boundOf, ih, Nat.add_assoc (20 + field.data.length)]

theorem length_encodeFields_le (fields : List RawField) :
    (encodeFields fields).length ≤ boundOf fields := by
  have sorted : (encodeFields fields).length = (fields.flatMap RawField.encode).length :=
    ((sortFields_perm fields).flatMap_right _).length_eq
  rw [sorted]
  clear sorted
  induction fields with
  | nil => exact Nat.le_refl 0
  | cons field fields ih =>
      rw [List.flatMap_cons, List.length_append, boundOf]
      exact Nat.add_le_add field.length_encode_le ih

end Wire

/-- What payloads take up at most, each in a field of its own. -/
def payloadBound : List (List UInt8) → Nat
  | [] => 0
  | data :: payloads => 20 + data.length + payloadBound payloads

theorem length_flatten_le_payloadBound (payloads : List (List UInt8)) :
    payloads.flatten.length ≤ payloadBound payloads := by
  induction payloads with
  | nil => exact Nat.le_refl 0
  | cons data payloads ih =>
      rw [List.flatten_cons, List.length_append, payloadBound]
      omega

/-- One field for all payloads takes up no more. -/
theorem Field.boundOf_rawFields_le (field : Field) (payloads : List (List UInt8)) :
    boundOf (field.rawFields payloads) ≤ payloadBound payloads := by
  rw [rawFields]
  split
  · cases payloads with
    | nil => exact Nat.le_refl 0
    | cons data payloads =>
        have rest := length_flatten_le_payloadBound payloads
        simp only [List.isEmpty_cons, Bool.false_eq_true, if_false, boundOf, RawField.bytes,
          List.flatten_cons, List.length_append, payloadBound]
        omega
  · induction payloads with
    | nil => exact Nat.le_refl 0
    | cons data payloads ih => exact Nat.add_le_add_left ih _

namespace Tree

/-- What a single value takes up at most. -/
def leafWeight : (leaf : Leaf) → leaf.Value → Nat
  | .text, text => (text : String).toUTF8.toList.length
  | _, _ => 10

theorem length_encodeLeaf_le (index : TableName → Int32) : ∀ (scalar : Leaf) (value : scalar.Value),
    (encodeLeaf index scalar value).length ≤ leafWeight scalar value
  | .int32, _ => length_encodeVarint_le _
  | .bool, _ => length_encodeVarint_le _
  | .sint64, _ => length_encodeVarint_le _
  | .float, _ => by simp [encodeLeaf, leafWeight]
  | .double, _ => by simp [encodeLeaf, leafWeight]
  | .text, _ => Nat.le_refl _
  | .name _, _ => length_encodeVarint_le _

/-- What a tree takes up at most. -/
def weight : {part : Part} → Tree part → Nat
  | _, leaf scalar value => leafWeight scalar value
  | _, message fields unknown => fields.weight + boundOf unknown
  | _, exactly value => 20 + value.weight
  | _, absent => 0
  | _, present value => 20 + value.weight
  | _, empty => 0
  | _, more value rest => (20 + value.weight) + rest.weight
  | _, nil => 0
  | _, cons slot rest => slot.weight + rest.weight

/-- The payloads of a field are within its bound if those of its values are within theirs. -/
theorem payloadBound_write_le (index : TableName → Int32) :
    ∀ {arity : Arity} {type : ValueType} (slot : Tree (.slot arity type)),
      (∀ value ∈ slot.held, (value.write index : List UInt8).length ≤ value.weight) →
        payloadBound (slot.write index) ≤ slot.weight
  | _, _, exactly value, bounded =>
      Nat.add_le_add_left (bounded value List.mem_cons_self) 20
  | _, _, absent, _ => Nat.le_refl 0
  | _, _, present value, bounded =>
      Nat.add_le_add_left (bounded value List.mem_cons_self) 20
  | _, _, empty, _ => Nat.le_refl 0
  | _, _, more value rest, bounded =>
      Nat.add_le_add (Nat.add_le_add_left (bounded value List.mem_cons_self) 20)
        (payloadBound_write_le index rest fun held mem =>
          bounded held (List.mem_cons_of_mem value mem))

/-- What is written for values and fields is within their bounds. -/
theorem length_write_le (index : TableName → Int32) :
    (∀ {type : ValueType} (value : Tree (.value type)),
      (value.write index : List UInt8).length ≤ value.weight) ∧
      ∀ {fields : List Field} (tree : Tree (.fields fields)),
        boundOf (tree.write index) ≤ tree.weight := by
  refine value_and_fields_induction
    (fun value => (value.write index : List UInt8).length ≤ value.weight)
    (fun tree => boundOf (tree.write index) ≤ tree.weight) ?leaf ?message ?nil ?cons
  case leaf => exact fun scalar value => length_encodeLeaf_le index scalar value
  case message =>
    intro kind fields unknown bounded
    apply Nat.le_trans (length_encodeFields_le _)
    rw [boundOf_append]
    exact Nat.add_le_add_right bounded _
  case nil => exact Nat.le_refl 0
  case cons =>
    intro field fields slot rest values others
    have first : boundOf (field.rawFields (slot.write index)) ≤ slot.weight :=
      Nat.le_trans (field.boundOf_rawFields_le _) (payloadBound_write_le index slot values)
    rw [write, boundOf_append]
    exact Nat.add_le_add first others

/-- The length of a message is bounded by its tree. -/
theorem length_encode_le {kind : Kind} (message : Message kind) (index : TableName → Int32) :
    (message.encode index).length ≤ message.weight :=
  (length_write_le index).1 message

end Tree

end KotlinMetadata
