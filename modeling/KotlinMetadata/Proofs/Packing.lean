import KotlinMetadata.Packing
import KotlinMetadata.Proofs.Faults

/-!
# Unpacking what was packed

Wherever packed strings are cut, their characters are the mark and then one
character a byte, and no string is empty, so the mark is found in front.
-/

namespace KotlinMetadata.Packing

/-- There is a character for every small number. -/
theorem toNat_charOfNat {code : Nat} (small : code < 256) : (Char.ofNat code).toNat = code := by
  have valid : code.isValidChar := Or.inl (Nat.lt_trans small (by decide))
  rw [Char.ofNat, dif_pos valid]
  rfl

theorem toNat_charOfByte (byte : UInt8) : (charOfByte byte).toNat = byte.toNat :=
  toNat_charOfNat byte.toNat_lt

/-- A character is a byte's if it is no larger than a byte. -/
theorem charOfByte_ofNat_toNat {c : Char} (small : c.toNat < 256) :
    charOfByte (UInt8.ofNat c.toNat) = c := by
  apply Char.toNat_inj.mp
  rw [toNat_charOfByte, UInt8.toNat_ofNat_of_lt' small]

theorem byteOfChar_eq_ok_iff {c : Char} {byte : UInt8} :
    byteOfChar c = .ok byte ↔ c = charOfByte byte := by
  constructor
  · intro read
    rw [byteOfChar] at read
    split at read
    · rename_i small
      cases read
      exact (charOfByte_ofNat_toNat small).symm
    · cases read
  · rintro rfl
    rw [byteOfChar, toNat_charOfByte, if_pos byte.toNat_lt, UInt8.ofNat_toNat]

/-- Characters are read as bytes exactly if they are the characters of these bytes. -/
theorem mapM_byteOfChar_eq_ok_iff {chars : List Char} {bytes : List UInt8} :
    chars.mapM byteOfChar = .ok bytes ↔ chars = bytes.map charOfByte := by
  simp only [mapM_eq_ok_iff, byteOfChar_eq_ok_iff]
  rw [← List.forall₂_map_right_iff, List.forall₂_eq_eq_eq]

/-- Cutting strings neither loses nor moves a character. -/
theorem flatMap_toList_packFrom (closed : List String) (chunk : List Char) (cost : Nat)
    (bytes : List UInt8) :
    (packFrom closed chunk cost bytes).flatMap String.toList =
      closed.reverse.flatMap String.toList ++ chunk.reverse ++ bytes.map charOfByte := by
  induction bytes generalizing closed chunk cost with
  | nil =>
      rw [packFrom]
      split
      · rename_i empty
        simp [List.isEmpty_iff.mp empty]
      · simp
  | cons byte rest ih =>
      rw [packFrom]
      split <;> simp [ih]

private theorem ofList_ne_empty {chars : List Char} (nonempty : chars ≠ []) :
    String.ofList chars.reverse ≠ "" := by
  intro empty
  have lists := congrArg String.toList empty
  rw [String.toList_ofList] at lists
  exact nonempty (List.reverse_eq_nil_iff.mp lists)

/-- No string is empty. -/
theorem ne_empty_of_mem_packFrom {closed : List String} {chunk : List Char} {cost : Nat}
    {bytes : List UInt8} (nonempty : ∀ text ∈ closed, text ≠ "") :
    ∀ text ∈ packFrom closed chunk cost bytes, text ≠ "" := by
  induction bytes generalizing closed chunk cost with
  | nil =>
      rw [packFrom]
      split
      · exact fun text mem => nonempty text (List.mem_reverse.mp mem)
      · rename_i filled
        intro text mem
        rcases List.mem_cons.mp (List.mem_reverse.mp mem) with rfl | mem
        · exact ofList_ne_empty (by simpa using filled)
        · exact nonempty text mem
  | cons byte rest ih =>
      rw [packFrom]
      split
      · refine ih fun text mem => ?_
        rcases List.mem_cons.mp mem with rfl | mem
        · exact ofList_ne_empty (List.cons_ne_nil _ _)
        · exact nonempty text mem
      · exact ih nonempty

theorem flatMap_toList_pack (bytes : List UInt8) :
    (pack bytes).flatMap String.toList = byteMark :: bytes.map charOfByte :=
  flatMap_toList_packFrom [] [byteMark] 2 bytes

/-- The first character of strings opens the first one, unless that is empty. -/
theorem head?_bind_head? {strings : List String} (filled : ∀ first ∈ strings.head?, first ≠ "") :
    (strings.head?.bind fun first => first.toList.head?) =
      (strings.flatMap String.toList).head? := by
  cases strings with
  | nil => rfl
  | cons first rest =>
      have nonempty : first.toList ≠ [] :=
        fun empty => filled first rfl (String.toList_eq_nil_iff.mp empty)
      rw [List.flatMap_cons, List.head?_append_of_ne_nil _ nonempty]
      rfl

theorem head?_pack (bytes : List UInt8) :
    ((pack bytes).head?.bind fun first => first.toList.head?) = some byteMark := by
  have nonempty : ∀ text ∈ pack bytes, text ≠ "" :=
    ne_empty_of_mem_packFrom fun _ mem => nomatch mem
  rw [head?_bind_head? fun first mem => nonempty first (List.mem_of_mem_head? mem),
    flatMap_toList_pack, List.head?_cons]

/-- Packed bytes are unpacked as they were. -/
@[simp]
theorem unpack_pack (bytes : List UInt8) : unpack (pack bytes) = .ok bytes := by
  simp only [unpack, head?_pack, flatMap_toList_pack, List.tail_cons, if_true]
  exact mapM_byteOfChar_eq_ok_iff.mpr rfl

theorem pack_ne_nil (bytes : List UInt8) : pack bytes ≠ [] := by
  intro empty
  have head := head?_pack bytes
  rw [empty] at head
  cases head

end KotlinMetadata.Packing
