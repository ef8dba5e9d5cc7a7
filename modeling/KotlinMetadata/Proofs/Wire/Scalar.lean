import KotlinMetadata.Wire.Scalar

/-!
# Scalars from their words

Widening, folding and laying out a scalar loses nothing: the reader of each
kind of scalar takes its word or its bytes back to it.  Folding is also what
two shifts make of a number.
-/

namespace KotlinMetadata.Wire

@[simp]
theorem int32OfWord_wordOfInt32 (value : Int32) : int32OfWord (wordOfInt32 value) = value := by
  apply Int32.toBitVec_inj.mp
  ext i inside
  simp only [int32OfWord, wordOfInt32, UInt32.toBitVec_toInt32, UInt64.toBitVec_toUInt32,
    Int64.toBitVec_toUInt64, Int32.toBitVec_toInt64, BitVec.getElem_setWidth,
    BitVec.getLsbD_signExtend, inside, if_true, BitVec.getLsbD_eq_getElem]
  simp only [Bool.and_eq_right_iff_imp, decide_eq_true_eq]
  omega

@[simp]
theorem boolOfWord_wordOfBool (value : Bool) : boolOfWord (wordOfBool value) = value := by
  cases value <;> rfl

/-- Folding keeps the magnitude of a number and puts its sign into the lowest bit. -/
theorem toNat_zigzag (value : Int64) :
    (zigzag value).toNat =
      if value.toInt < 0 then 2 * value.toInt.natAbs - 1 else 2 * value.toInt.natAbs := by
  have low := value.le_toInt
  have high := value.toInt_lt
  have negative_iff : value < 0 ↔ value.toInt < 0 := Int64.lt_iff_toInt_lt
  simp only [zigzag, negative_iff]
  split <;> rw [UInt64.toNat_ofNat', Nat.mod_eq_of_lt] <;> omega

@[simp]
theorem unzigzag_zigzag (value : Int64) : unzigzag (zigzag value) = value := by
  rw [unzigzag, toNat_zigzag]
  by_cases negative : value.toInt < 0
  · have odd : (2 * value.toInt.natAbs - 1) % 2 ≠ 0 := by omega
    have half : -((2 * value.toInt.natAbs - 1 : Nat) / 2 : Int) - 1 = value.toInt := by omega
    simp only [if_pos negative, if_neg odd, half, Int64.ofInt_toInt]
  · have even : 2 * value.toInt.natAbs % 2 = 0 := by omega
    have half : ((2 * value.toInt.natAbs : Nat) / 2 : Int) = value.toInt := by omega
    simp only [if_neg negative, if_pos even, half, Int64.ofInt_toInt]

/-- What is left of a number that is shifted to the right by all its bits but one is its sign. -/
theorem sshiftRight_sign (bits : BitVec 64) :
    bits.sshiftRight 63 = if bits.msb then BitVec.allOnes 64 else 0#64 := by
  cases sign : bits.msb with
  | false =>
      have half := BitVec.toNat_lt_of_msb_false sign
      rw [BitVec.sshiftRight_eq_of_msb_false sign]
      apply BitVec.eq_of_toNat_eq
      rw [BitVec.toNat_ushiftRight, Nat.shiftRight_eq_div_pow, Nat.div_eq_of_lt half]
      rfl
  | true =>
      have half := BitVec.toNat_ge_of_msb_true sign
      rw [BitVec.sshiftRight_eq_of_msb_true sign]
      apply BitVec.eq_of_toNat_eq
      rw [BitVec.toNat_not, BitVec.toNat_ushiftRight, BitVec.toNat_not, Nat.shiftRight_eq_div_pow,
        Nat.div_eq_of_lt (by omega)]
      rfl

/-- Folding is a shift to the left, with every bit turned over if the number is negative. -/
theorem zigzag_eq_shift (value : Int64) :
    zigzag value = ((value <<< 1) ^^^ (value >>> 63)).toUInt64 := by
  have bits_eq : ((value <<< 1) ^^^ (value >>> 63)).toBitVec =
      value.toBitVec <<< 1 ^^^ value.toBitVec.sshiftRight 63 := rfl
  apply UInt64.toNat_inj.mp
  rw [toNat_zigzag, ← Int64.toNat_toBitVec, bits_eq, sshiftRight_sign, ← Int64.toInt_toBitVec]
  generalize value.toBitVec = bits
  have small := bits.isLt
  cases sign : bits.msb with
  | false =>
      have half := BitVec.toNat_lt_of_msb_false sign
      rw [BitVec.toInt_eq_toNat_of_msb sign, if_neg (by omega), if_neg (by decide), BitVec.xor_zero,
        BitVec.toNat_shiftLeft, Nat.shiftLeft_eq]
      omega
  | true =>
      have half := BitVec.toNat_ge_of_msb_true sign
      rw [if_pos rfl, BitVec.xor_allOnes, BitVec.toNat_not, BitVec.toNat_shiftLeft,
        Nat.shiftLeft_eq, BitVec.toInt_eq_msb_cond, if_pos sign, if_pos (by omega)]
      omega

/-- The sign is taken back out by a shift to the right, with every bit turned over if the lowest one
was set. -/
theorem unzigzag_eq_shift (word : UInt64) :
    unzigzag word = (word >>> 1).toInt64 ^^^ -(word &&& 1).toInt64 := by
  have low : word &&& 1 = UInt64.ofNat (word.toNat % 2) := by
    rw [← Nat.and_one_is_mod]
    exact UInt64.ofNat_toNat.symm
  have half : (word >>> 1).toInt64 = Int64.ofInt (word.toNat / 2) := by
    have half_eq : word >>> 1 = UInt64.ofNat (word.toNat / 2) := by
      apply UInt64.toNat_inj.mp
      have small : word.toNat < 2 ^ 64 := word.toNat_lt
      have one : (1 : UInt64).toNat % 64 = 1 := rfl
      rw [UInt64.toNat_shiftRight, UInt64.toNat_ofNat', one, Nat.shiftRight_eq_div_pow]
      omega
    rw [half_eq, UInt64.toInt64_ofNat', ← Int64.ofInt_eq_ofNat]
    rfl
  rw [unzigzag, half, low]
  rcases Nat.mod_two_eq_zero_or_one word.toNat with even | odd
  · rw [if_pos even, even]
    exact Int64.xor_zero.symm
  · rw [if_neg (by omega), odd]
    change _ = _ ^^^ -1
    rw [Int64.xor_neg_one, Int64.not_eq_neg_sub, Int64.ofInt_sub, Int64.ofInt_neg]
    rfl

/-- The bits of a 32-bit float are read back. -/
theorem ofNat_ofLittleEndian_four (bits : UInt32) :
    UInt32.ofNat (ofLittleEndian (littleEndian 4 bits.toNat)) = bits := by
  rw [ofLittleEndian_littleEndian 4 _ bits.toNat_lt, UInt32.ofNat_toNat]

/-- The bits of a 64-bit float are read back. -/
theorem ofNat_ofLittleEndian_eight (bits : UInt64) :
    UInt64.ofNat (ofLittleEndian (littleEndian 8 bits.toNat)) = bits := by
  rw [ofLittleEndian_littleEndian 8 _ bits.toNat_lt, UInt64.ofNat_toNat]

private theorem toList_loop (bytes : ByteArray) (i : Nat) (read : List UInt8) :
    ByteArray.toList.loop bytes i read = read.reverse ++ bytes.data.toList.drop i := by
  fun_induction ByteArray.toList.loop bytes i read with
  | case1 i read more ih =>
      have inside : i < bytes.data.toList.length := more
      have head : bytes.get! i = bytes.data.toList[i] := getElem!_pos bytes.data i more
      rw [ih, List.drop_eq_getElem_cons inside, List.reverse_cons, head]
      simp
  | case2 i read done =>
      have outside : bytes.data.toList.length ≤ i := Nat.not_lt.mp done
      simp [List.drop_of_length_le outside]

/-- A byte array is made of the bytes that it lists. -/
theorem toByteArray_toList (bytes : ByteArray) : bytes.toList.toByteArray = bytes := by
  apply ByteArray.ext
  apply Array.toList_inj.mp
  rw [List.toList_data_toByteArray, ByteArray.toList, toList_loop]
  simp

/-- A byte array lists the bytes that it is made of. -/
theorem toList_toByteArray (data : List UInt8) : data.toByteArray.toList = data := by
  rw [ByteArray.toList, toList_loop, List.toList_data_toByteArray]
  rfl

/-- A text has the bytes that it is read from. -/
theorem toUTF8_of_fromUTF8? {bytes : ByteArray} {text : String}
    (found : String.fromUTF8? bytes = some text) : text.toUTF8 = bytes := by
  rw [String.fromUTF8?] at found
  split at found
  · cases found
    rfl
  · cases found

/-- The bytes of a text are read back. -/
theorem fromUTF8?_toUTF8 (text : String) :
    String.fromUTF8? text.toUTF8.toList.toByteArray = some text := by
  rw [toByteArray_toList, String.toUTF8_eq_toByteArray, String.fromUTF8?,
    dif_pos text.isValidUTF8]
  rfl

end KotlinMetadata.Wire
