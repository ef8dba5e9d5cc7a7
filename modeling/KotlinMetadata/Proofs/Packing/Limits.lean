import Mathlib.Algebra.GroupWithZero.Nat
import KotlinMetadata.Proofs.Packing

/-!
# Packed strings in a class file

A class file holds a string in modified UTF-8 and allows it 65535 bytes.
Packed strings are as long as this allows, up to one byte, and strings that
begin with the mark are packed strings as soon as each of their characters
stands for a byte, except that they may be cut elsewhere.
-/

namespace KotlinMetadata.Packing

/-- What a character takes up in modified UTF-8.  U+0000 takes two bytes, and what lies beyond
U+FFFF is written as two surrogates. -/
def charSize (c : Char) : Nat :=
  if c.toNat = 0 then 2
  else if c.toNat ≤ 0x7F then 1
  else if c.toNat ≤ 0x7FF then 2
  else if c.toNat ≤ 0xFFFF then 3
  else 6

/-- What characters take up in modified UTF-8. -/
def charsSize (chars : List Char) : Nat :=
  (chars.map charSize).sum

/-- What a string takes up in modified UTF-8. -/
def textSize (text : String) : Nat :=
  charsSize text.toList

/-! ## Sizes -/

/-- A byte is charged what its character takes up. -/
theorem byteCost_eq_charSize (byte : UInt8) : byteCost byte = charSize (charOfByte byte) := by
  have small : byte.toNat < 256 := byte.toNat_lt
  simp only [byteCost, charSize, toNat_charOfByte, UInt8.le_iff_toNat_le, UInt8.reduceToNat]
  split_ifs <;> omega

theorem byteCost_le (byte : UInt8) : byteCost byte ≤ 2 := by
  rw [byteCost]
  split <;> decide

theorem textSize_ofList_reverse (chars : List Char) :
    textSize (String.ofList chars.reverse) = charsSize chars := by
  rw [textSize, String.toList_ofList, charsSize, List.map_reverse, List.sum_reverse, charsSize]

/-- A closed string fits a class file, and a character that takes two bytes might not fit behind
it. -/
structure Full (text : String) : Prop where
  limit_le : 65534 ≤ textSize text
  size_le : textSize text ≤ 65535

/-- Packing cuts full strings and perhaps one that is still open. -/
theorem exists_full_packFrom {closed : List String} {chunk : List Char} {bytes : List UInt8}
    (full : ∀ text ∈ closed, Full text) (opened : charsSize chunk < chunkLimit) :
    ∃ (fulls : List String) (last : Option String),
      packFrom closed chunk (charsSize chunk) bytes = fulls ++ last.toList ∧
        (∀ text ∈ fulls, Full text) ∧ ∀ text ∈ last, textSize text < chunkLimit := by
  induction bytes generalizing closed chunk with
  | nil =>
      have reversed : ∀ text ∈ closed.reverse, Full text :=
        fun text mem => full text (List.mem_reverse.mp mem)
      rw [packFrom]
      split
      · refine ⟨closed.reverse, none, (List.append_nil _).symm, reversed, ?_⟩
        exact fun _ mem => absurd mem (Option.not_mem_none _)
      · refine ⟨closed.reverse, some (String.ofList chunk.reverse), List.reverse_cons, reversed, ?_⟩
        rintro _ ⟨⟩
        rwa [textSize_ofList_reverse]
  | cons byte rest ih =>
      have grown : charsSize chunk + byteCost byte = charsSize (charOfByte byte :: chunk) := by
        rw [byteCost_eq_charSize, Nat.add_comm]
        rfl
      rw [packFrom, grown]
      split
      · rename_i reached
        refine @ih _ [] (List.forall_mem_cons.mpr ⟨⟨?_, ?_⟩, full⟩) (by decide)
        · rwa [textSize_ofList_reverse]
        · rw [textSize_ofList_reverse, ← grown]
          have cost := byteCost_le byte
          simp only [chunkLimit] at opened
          omega
      · rename_i notReached
        exact ih full (Nat.lt_of_not_le notReached)

/-- All packed strings fit a class file, and all but the last are full. -/
theorem textSize_pack (bytes : List UInt8) :
    (∀ text ∈ pack bytes, textSize text ≤ 65535) ∧
      ∀ text ∈ (pack bytes).dropLast, 65534 ≤ textSize text := by
  obtain ⟨fulls, last, pack_eq, full, opened⟩ :=
    @exists_full_packFrom [] [byteMark] bytes (fun _ mem => nomatch mem) (by decide)
  have packed : pack bytes = fulls ++ last.toList := pack_eq
  rw [packed]
  constructor
  · intro text mem
    rcases List.mem_append.mp mem with mem | mem
    · exact (full text mem).size_le
    · have below := opened text (Option.mem_toList.mp mem)
      simp only [chunkLimit] at below
      omega
  · intro text mem
    refine (full text ?_).limit_le
    cases last with
    | none =>
        rw [Option.toList_none, List.append_nil] at mem
        exact List.dropLast_subset fulls mem
    | some last => rwa [Option.toList_some, List.dropLast_concat] at mem

/-! ## What can be unpacked -/

/-- Whether a character is larger than a byte. -/
def beyondByte (c : Char) : Bool :=
  0xFF < c.toNat

theorem exists_mapM_byteOfChar_iff {chars : List Char} :
    (∃ bytes, chars.mapM byteOfChar = .ok bytes) ↔ ∀ c ∈ chars, c.toNat ≤ 0xFF := by
  simp only [mapM_byteOfChar_eq_ok_iff]
  constructor
  · rintro ⟨bytes, rfl⟩
    refine List.forall_mem_map.mpr fun byte _ => ?_
    rw [toNat_charOfByte]
    exact Nat.le_of_lt_succ byte.toNat_lt
  · intro small
    have same : ∀ c ∈ chars, charOfByte (UInt8.ofNat c.toNat) = c :=
      fun c mem => charOfByte_ofNat_toNat (Nat.lt_succ_of_le (small c mem))
    refine ⟨chars.map fun c => UInt8.ofNat c.toNat, ?_⟩
    rw [List.map_map]
    exact ((List.map_congr_left same).trans (List.map_id chars)).symm

/-- The first character that is larger than a byte is the one that is reported. -/
theorem mapM_byteOfChar_eq_error {chars : List Char} {c : Char}
    (found : chars.find? beyondByte = some c) :
    chars.mapM byteOfChar = .error (.invalidCharacter c.toNat) := by
  induction chars with
  | nil => cases found
  | cons first chars ih =>
      rw [List.mapM_cons, byteOfChar]
      cases beyond : beyondByte first with
      | true =>
          rw [List.find?_cons_of_pos beyond] at found
          obtain rfl := Option.some.inj found
          have large : ¬ first.toNat < 256 := Nat.not_lt.mpr (of_decide_eq_true beyond)
          rw [if_neg large]
          rfl
      | false =>
          rw [List.find?_cons_of_neg (by simp [beyond])] at found
          have small : first.toNat < 256 :=
            Nat.lt_succ_of_le (Nat.not_lt.mp (of_decide_eq_false beyond))
          rw [if_pos small, ih found]
          rfl

theorem unpack_of_mark {first : String} {tail : List Char} (rest : List String)
    (marked : first.toList = byteMark :: tail) :
    unpack (first :: rest) = (tail ++ rest.flatMap String.toList).mapM byteOfChar := by
  simp [unpack, marked]

/-- Packing and unpacking are inverse to each other up to the places where strings are cut, and
packed strings fit a class file. -/
theorem pack_unpack_inverse :
    (∀ bytes,
      unpack (pack bytes) = .ok bytes ∧
        (∀ text ∈ pack bytes, text ≠ "" ∧ textSize text ≤ 65535) ∧
        ∀ text ∈ (pack bytes).dropLast, 65534 ≤ textSize text) ∧
    ∀ (first : String) (tail : List Char) (rest : List String), first.toList = byteMark :: tail →
      let later := tail ++ rest.flatMap String.toList
      ((∃ bytes, unpack (first :: rest) = .ok bytes) ↔ ∀ c ∈ later, c.toNat ≤ 0xFF) ∧
        (∀ c, later.find? beyondByte = some c →
          unpack (first :: rest) = .error (.invalidCharacter c.toNat)) ∧
        ∀ bytes, unpack (first :: rest) = .ok bytes →
          (pack bytes).flatMap String.toList = (first :: rest).flatMap String.toList := by
  constructor
  · intro bytes
    obtain ⟨fits, full⟩ := textSize_pack bytes
    have filled := @ne_empty_of_mem_packFrom [] [byteMark] 2 bytes fun _ mem => nomatch mem
    exact ⟨unpack_pack bytes, fun text mem => ⟨filled text mem, fits text mem⟩, full⟩
  · intro first tail rest marked later
    rw [unpack_of_mark rest marked]
    refine ⟨exists_mapM_byteOfChar_iff, fun c => mapM_byteOfChar_eq_error, fun bytes read => ?_⟩
    rw [flatMap_toList_pack, ← mapM_byteOfChar_eq_ok_iff.mp read, List.flatMap_cons, marked]
    rfl

/-- Strings that are cut elsewhere are unpacked too, and the first character that stands for no
byte is reported. -/
theorem pack_unpack_inverse_sample :
    (∃ bytes, unpack ["\x00\n", "", "\u00ff"] = .ok bytes ∧
      (pack bytes).flatMap String.toList = ['\x00', '\n', '\u00ff']) ∧
    unpack ["\x00\n", "\u0100a", "\u0101"] = .error (.invalidCharacter 0x100) := by
  obtain ⟨_, whole⟩ := pack_unpack_inverse
  constructor
  · obtain ⟨succeeds, _, again⟩ := whole "\x00\n" ['\n'] ["", "\u00ff"] (by decide)
    have small : ∀ c ∈ ['\n', '\u00ff'], c.toNat ≤ 0xFF := by simp
    obtain ⟨bytes, read⟩ := succeeds.mpr small
    exact ⟨bytes, read, again bytes read⟩
  · obtain ⟨_, fails, _⟩ := whole "\x00\n" ['\n'] ["\u0100a", "\u0101"] (by decide)
    exact fails '\u0100' (by decide)

end KotlinMetadata.Packing
