import Mathlib.Algebra.GroupWithZero.Nat
import KotlinMetadata.Proofs.Packing

/-!
# Strings in the older form

In the older form strings hold groups of seven bits, and unpacking regroups the
stream of these bits: as far as whole bytes go, the bytes spell bit by bit what
the groups spell.  A reader need not spread the groups out for this.  It may
walk over them with a cursor and join the rest of a group to the beginning of
the next; it never looks for a group that is not there, and comes to the same
bytes.  So whatever is cut into groups of seven bits is put together again.
-/

namespace KotlinMetadata.Packing

/-! ## Streams of bits -/

/-- The bit at a place in the stream that numbers of `width` bits spell, lowest bits first. -/
def bitAt (width : Nat) (numbers : List Nat) (place : Nat) : Option Bool :=
  numbers[place / width]?.map fun number => number.testBit (place % width)

section

variable {width place : Nat}

theorem bitAt_mul_add (inside : place < width) (numbers : List Nat) (position : Nat) :
    bitAt width numbers (width * position + place) =
      numbers[position]?.map fun number => number.testBit place := by
  have pos : 0 < width := Nat.zero_lt_of_lt inside
  rw [bitAt, Nat.mul_add_div pos, Nat.div_eq_of_lt inside, Nat.add_zero, Nat.mul_add_mod,
    Nat.mod_eq_of_lt inside]

theorem bitAt_cons_of_lt (inside : place < width) (number : Nat) (numbers : List Nat) :
    bitAt width (number :: numbers) place = some (number.testBit place) := by
  rw [bitAt, Nat.div_eq_of_lt inside, Nat.mod_eq_of_lt inside]
  rfl

theorem bitAt_cons_add (pos : 0 < width) (number : Nat) (numbers : List Nat) :
    bitAt width (number :: numbers) (width + place) = bitAt width numbers place := by
  rw [bitAt, Nat.add_div_left place pos, Nat.add_mod_left]
  rfl

end

theorem testBit_toNat_eq_false {byte : UInt8} {place : Nat} (beyond : 8 ≤ place) :
    byte.toNat.testBit place = false := by
  apply Nat.testBit_lt_two_pow
  exact Nat.lt_of_lt_of_le byte.toNat_lt (Nat.pow_le_pow_right (by decide) beyond)

/-- Bytes are known by the stream that they spell. -/
theorem eq_of_bitAt_eq {bytes others : List UInt8} (length : bytes.length = others.length)
    (same : ∀ place < 8 * bytes.length,
      bitAt 8 (bytes.map UInt8.toNat) place = bitAt 8 (others.map UInt8.toNat) place) :
    bytes = others := by
  induction bytes generalizing others with
  | nil => exact (List.length_eq_zero_iff.mp length.symm).symm
  | cons byte rest ih =>
      cases others with
      | nil => cases length
      | cons other others =>
          simp only [List.map_cons, List.length_cons] at length same
          have first : byte = other := by
            refine UInt8.toNat_inj.mp (Nat.eq_of_testBit_eq fun place => ?_)
            rcases Nat.lt_or_ge place 8 with inside | beyond
            · have here := same place (by omega)
              rw [bitAt_cons_of_lt inside, bitAt_cons_of_lt inside] at here
              exact Option.some.inj here
            · rw [testBit_toNat_eq_false beyond, testBit_toNat_eq_false beyond]
          have behind : rest = others := by
            refine ih (Nat.succ.inj length) fun place inside => ?_
            have later := same (8 + place) (by omega)
            rwa [bitAt_cons_add (by decide), bitAt_cons_add (by decide)] at later
          rw [first, behind]

/-- The number that bits spell, lowest first. -/
def numberOfBits (bits : List Bool) : Nat :=
  bits.foldr (fun bit n => (if bit then 1 else 0) + 2 * n) 0

theorem testBit_numberOfBits (bits : List Bool) (place : Nat) :
    (numberOfBits bits).testBit place = bits[place]?.getD false := by
  induction bits generalizing place with
  | nil => exact Nat.zero_testBit place
  | cons bit rest ih =>
      change ((if bit then 1 else 0) + 2 * numberOfBits rest).testBit place = _
      cases place with
      | zero => cases bit <;> simp [Nat.testBit_zero, Nat.add_mul_mod_self_left]
      | succ place =>
          have half : ((if bit then 1 else 0) + 2 * numberOfBits rest) / 2 = numberOfBits rest := by
            split <;> omega
          rw [Nat.testBit_succ, half, ih, List.getElem?_cons_succ]

theorem testBit_toNat_ofNat (number : Nat) {place : Nat} (inside : place < 8) :
    (UInt8.ofNat number).toNat.testBit place = number.testBit place := by
  rw [UInt8.toNat_ofNat', Nat.testBit_mod_two_pow, decide_eq_true inside, Bool.true_and]

/-! ## Bytes from bits -/

theorem bytesOfBits_append : ∀ {first : List Bool}, first.length = 8 → ∀ rest : List Bool,
    bytesOfBits (first ++ rest) = byteOfBits first :: bytesOfBits rest
  | [_, _, _, _, _, _, _, _], _, _ => rfl

theorem bytesOfBits_of_short {bits : List Bool} (short : bits.length < 8) :
    bytesOfBits bits = [] := by
  rw [bytesOfBits]
  rintro _ _ _ _ _ _ _ _ rest rfl
  simp only [List.length_cons] at short
  omega

/-- There is a byte for every eight bits, and the bytes spell these bits. -/
theorem bitAt_bytesOfBits (bits : List Bool) :
    (bytesOfBits bits).length = bits.length / 8 ∧
      ∀ place < 8 * (bytesOfBits bits).length,
        bitAt 8 ((bytesOfBits bits).map UInt8.toNat) place = bits[place]? := by
  rcases Nat.lt_or_ge bits.length 8 with short | enough
  · rw [bytesOfBits_of_short short, Nat.div_eq_of_lt short]
    exact ⟨rfl, fun place inside => absurd inside (Nat.not_lt_zero place)⟩
  · obtain ⟨first, rest, rfl, eight⟩ : ∃ first rest, bits = first ++ rest ∧ first.length = 8 :=
      ⟨bits.take 8, bits.drop 8, (List.take_append_drop 8 bits).symm, List.length_take_of_le enough⟩
    obtain ⟨length, spelled⟩ := bitAt_bytesOfBits rest
    rw [bytesOfBits_append eight, List.length_cons, List.map_cons, List.length_append, eight]
    constructor
    · omega
    · intro place inside
      rcases Nat.lt_or_ge place 8 with here | later
      · have spells : (byteOfBits first).toNat.testBit place = first[place]?.getD false :=
          (testBit_toNat_ofNat (numberOfBits first) here).trans (testBit_numberOfBits first place)
        rw [bitAt_cons_of_lt here, spells, List.getElem?_append_left (by omega),
          List.getElem?_eq_getElem (by omega), Option.getD_some]
      · obtain ⟨behind, rfl⟩ := Nat.exists_eq_add_of_le later
        rw [bitAt_cons_add (by decide), spelled behind (by omega),
          List.getElem?_append_right (by omega), eight, Nat.add_sub_cancel_left]
termination_by bits.length
decreasing_by simp_all

/-! ## Groups -/

theorem length_groupBits (group : Nat) : (groupBits group).length = 7 := by
  rw [groupBits, List.length_map, List.length_range]

theorem length_flatMap_groupBits (groups : List Nat) :
    (groups.flatMap groupBits).length = 7 * groups.length := by
  induction groups with
  | nil => rfl
  | cons group rest ih =>
      rw [List.flatMap_cons, List.length_append, length_groupBits, ih, List.length_cons]
      omega

theorem getElem?_flatMap_groupBits (groups : List Nat) (place : Nat) :
    (groups.flatMap groupBits)[place]? = bitAt 7 groups place := by
  induction groups generalizing place with
  | nil => rfl
  | cons group rest ih =>
      have seven := length_groupBits group
      rw [List.flatMap_cons]
      rcases Nat.lt_or_ge place 7 with here | later
      · rw [bitAt_cons_of_lt here, List.getElem?_append_left (by omega), groupBits,
          List.getElem?_map, List.getElem?_range here, Option.map_some]
      · obtain ⟨behind, rfl⟩ := Nat.exists_eq_add_of_le later
        rw [bitAt_cons_add (by decide), List.getElem?_append_right (by omega), seven,
          Nat.add_sub_cancel_left, ih]

/-- Bytes that hold what groups spell: as many as the groups have bits for, and bit by bit the
same. -/
structure Regrouped (groups : List Nat) (bytes : List UInt8) : Prop where
  length : bytes.length = 7 * groups.length / 8
  spelled : ∀ place < 8 * bytes.length,
    bitAt 8 (bytes.map UInt8.toNat) place = bitAt 7 groups place

theorem regrouped_bytesOfBits (groups : List Nat) :
    Regrouped groups (bytesOfBits (groups.flatMap groupBits)) := by
  obtain ⟨length, spelled⟩ := bitAt_bytesOfBits (groups.flatMap groupBits)
  rw [length_flatMap_groupBits] at length
  exact ⟨length, fun place inside => by rw [spelled place inside, getElem?_flatMap_groupBits]⟩

/-- There is only one way to regroup. -/
theorem Regrouped.unique {groups : List Nat} {bytes others : List UInt8}
    (first : Regrouped groups bytes) (second : Regrouped groups others) : bytes = others := by
  have length : bytes.length = others.length := first.length.trans second.length.symm
  refine eq_of_bitAt_eq length fun place inside => ?_
  rw [first.spelled place inside, second.spelled place (length ▸ inside)]

/-! ## Reading with a cursor -/

theorem testBit_joinGroups {used low high : Nat} (small : low < 128) (unused : used < 7)
    {place : Nat} (inside : place < 8) :
    (joinGroups used low high).testBit place =
      if used + place < 7 then low.testBit (used + place)
      else high.testBit (used + place - 7) := by
  have rest : low >>> used < 2 ^ (7 - used) := by
    rw [Nat.shiftRight_eq_div_pow]
    apply Nat.div_lt_of_lt_mul
    rw [← Nat.pow_add, Nat.add_sub_cancel' (Nat.le_of_lt unused)]
    exact small
  rw [joinGroups, Nat.one_shiftLeft, Nat.and_two_pow_sub_one_eq_mod, Nat.shiftLeft_eq,
    Nat.add_comm, Nat.mul_comm, Nat.testBit_two_pow_mul_add _ rest]
  by_cases here : place < 7 - used
  · rw [if_pos here, if_pos (by omega), Nat.testBit_shiftRight]
  · have behind : place - (7 - used) = used + place - 7 := by omega
    rw [if_neg here, if_neg (by omega), Nat.testBit_mod_two_pow, behind,
      decide_eq_true (by omega), Bool.true_and]

namespace GroupCursor

/-- How many bits are in front of a cursor. -/
def offset (cursor : GroupCursor) : Nat :=
  7 * cursor.position + cursor.used

variable {cursor : GroupCursor}

theorem offset_next (cursor : GroupCursor) : cursor.next.offset = cursor.offset + 8 := by
  simp only [next, offset]
  split <;> simp only <;> omega

theorem used_next_lt (unused : cursor.used < 7) : cursor.next.used < 7 := by
  rw [next]
  split <;> simp only <;> omega

variable {groups : List Nat}

theorem readBytes_succ {count : Nat} {rest : List UInt8}
    (inside : cursor.position + 1 < groups.length)
    (read : readBytes groups cursor.next count = some rest) :
    readBytes groups cursor (count + 1) =
      some (UInt8.ofNat (joinGroups cursor.used groups[cursor.position]
        groups[cursor.position + 1]) :: rest) := by
  rw [readBytes, List.getElem?_eq_getElem (Nat.lt_of_succ_lt inside),
    List.getElem?_eq_getElem inside, read]
  rfl

/-- A byte joined at a cursor spells the next eight bits of the stream. -/
theorem testBit_joinGroups_eq_bitAt (small : ∀ group ∈ groups, group < 128)
    (unused : cursor.used < 7) (inside : cursor.position + 1 < groups.length) {place : Nat}
    (here : place < 8) :
    some ((joinGroups cursor.used groups[cursor.position]
      groups[cursor.position + 1]).testBit place) = bitAt 7 groups (cursor.offset + place) := by
  rw [testBit_joinGroups (small _ (List.getElem_mem _)) unused here, offset]
  split
  · rename_i first
    rw [Nat.add_assoc, bitAt_mul_add first, List.getElem?_eq_getElem (Nat.lt_of_succ_lt inside)]
    rfl
  · have place_eq : 7 * cursor.position + cursor.used + place =
        7 * (cursor.position + 1) + (cursor.used + place - 7) := by omega
    rw [place_eq, bitAt_mul_add (by omega), List.getElem?_eq_getElem inside]
    rfl

/-- A cursor with bits enough behind it finds every group that it looks for, and reads what the
groups spell. -/
theorem exists_readBytes (small : ∀ group ∈ groups, group < 128) {count : Nat}
    (unused : cursor.used < 7) (enough : cursor.offset + 8 * count ≤ 7 * groups.length) :
    ∃ bytes, readBytes groups cursor count = some bytes ∧ bytes.length = count ∧
      ∀ place < 8 * count,
        bitAt 8 (bytes.map UInt8.toNat) place = bitAt 7 groups (cursor.offset + place) := by
  induction count generalizing cursor with
  | zero => exact ⟨[], rfl, rfl, fun place inside => absurd inside (Nat.not_lt_zero place)⟩
  | succ count ih =>
      have inside : cursor.position + 1 < groups.length := by
        rw [offset] at enough
        omega
      have offset_eq := cursor.offset_next
      obtain ⟨rest, read, length, spelled⟩ := ih (used_next_lt unused) (by omega)
      refine ⟨_, readBytes_succ inside read, congrArg Nat.succ length, fun place below => ?_⟩
      rw [List.map_cons]
      rcases Nat.lt_or_ge place 8 with here | later
      · rw [bitAt_cons_of_lt here, testBit_toNat_ofNat _ here,
          testBit_joinGroups_eq_bitAt small unused inside here]
      · obtain ⟨behind, rfl⟩ := Nat.exists_eq_add_of_le later
        rw [bitAt_cons_add (by decide), spelled behind (by omega), offset_eq, Nat.add_assoc]

/-- From the first group on, a cursor reads all that can be regrouped. -/
theorem readBytes_of_regrouped (small : ∀ group ∈ groups, group < 128) {bytes : List UInt8}
    (regrouped : Regrouped groups bytes) :
    readBytes groups start (7 * groups.length / 8) = some bytes := by
  have enough : start.offset + 8 * (7 * groups.length / 8) ≤ 7 * groups.length := by
    simp only [offset, start]
    omega
  obtain ⟨read, success, length, spelled⟩ := exists_readBytes small (by decide) enough
  have same : Regrouped groups read := by
    refine ⟨length, fun place inside => ?_⟩
    rw [spelled place (length ▸ inside)]
    exact congrArg (bitAt 7 groups) (Nat.zero_add place)
  rw [success, same.unique regrouped]

end GroupCursor

/-! ## Characters -/

theorem groupOfChar_lt (c : Char) : groupOfChar c < 128 :=
  Nat.mod_lt _ (by decide)

/-- A character stands for the seven lowest bits of the number before its own. -/
theorem groupOfChar_eq (c : Char) : (groupOfChar c : Int) = ((c.toNat : Int) - 1) % 128 := by
  rw [groupOfChar]
  omega

/-- The characters that stand for groups: all but a mark in front of the first string. -/
def groupChars (strings : List String) : List Char :=
  if (strings.head?.bind fun first => first.toList.head?) = some groupMark then
    (strings.flatMap String.toList).tail
  else strings.flatMap String.toList

/-- Strings that do not begin with the mark of the other form are unpacked group by group. -/
theorem unpack_of_head?_ne {strings : List String}
    (older : (strings.head?.bind fun first => first.toList.head?) ≠ some byteMark) :
    unpack strings =
      .ok (bytesOfBits (((groupChars strings).map groupOfChar).flatMap groupBits)) := by
  unfold unpack groupChars
  generalize (strings.head?.bind fun first => first.toList.head?) = first? at older
  simp only [List.flatMap_map]
  cases first? with
  | none => rfl
  | some first =>
      rw [Ne, Option.some.injEq] at older
      simp only [if_neg older, Option.some.injEq]
      split <;> rfl

/-! ## Packing in the older form -/

/-- Groups for the bits of bytes, as many as it takes.  Bits that are missing in the last one are
zero. -/
def groupsOfBytes (bytes : List UInt8) : List Nat :=
  (List.range ((8 * bytes.length + 6) / 7)).map fun position =>
    numberOfBits ((List.range 7).map fun place =>
      (bitAt 8 (bytes.map UInt8.toNat) (7 * position + place)).getD false)

/-- A group as a character. -/
def charOfGroup (group : Nat) : Char :=
  Char.ofNat ((group + 1) % 128)

/-- Bytes as characters in the older form. -/
def packGroups (bytes : List UInt8) : List Char :=
  (groupsOfBytes bytes).map charOfGroup

theorem lt_of_mem_groupsOfBytes {bytes : List UInt8} :
    ∀ group ∈ groupsOfBytes bytes, group < 128 := by
  refine List.forall_mem_map.mpr fun position _ => ?_
  refine Nat.lt_pow_two_of_testBit (n := 7) _ fun place beyond => ?_
  rw [testBit_numberOfBits, List.getElem?_eq_none (by simpa using beyond)]
  rfl

/-- The groups for some bytes spell what the bytes spell. -/
theorem bitAt_groupsOfBytes {bytes : List UInt8} {place : Nat} (inside : place < 8 * bytes.length) :
    bitAt 7 (groupsOfBytes bytes) place = bitAt 8 (bytes.map UInt8.toNat) place := by
  have position : place / 7 < (8 * bytes.length + 6) / 7 := by omega
  have rest : place % 7 < 7 := Nat.mod_lt _ (by decide)
  have given : place / 8 < (bytes.map UInt8.toNat).length := by
    rw [List.length_map]
    omega
  rw [bitAt, groupsOfBytes, List.getElem?_map, List.getElem?_range position, Option.map_some,
    Option.map_some, testBit_numberOfBits, List.getElem?_map, List.getElem?_range rest,
    Option.map_some, Option.getD_some, Nat.div_add_mod, bitAt, List.getElem?_eq_getElem given]
  rfl

theorem regrouped_groupsOfBytes (bytes : List UInt8) : Regrouped (groupsOfBytes bytes) bytes where
  length := by
    rw [groupsOfBytes, List.length_map, List.length_range]
    omega
  spelled := fun _ inside => (bitAt_groupsOfBytes inside).symm

theorem toNat_charOfGroup (group : Nat) : (charOfGroup group).toNat = (group + 1) % 128 :=
  toNat_charOfNat (Nat.lt_trans (Nat.mod_lt _ (by decide)) (by decide))

theorem groupOfChar_charOfGroup {group : Nat} (small : group < 128) :
    groupOfChar (charOfGroup group) = group := by
  rw [groupOfChar, toNat_charOfGroup]
  omega

theorem map_groupOfChar_packGroups (bytes : List UInt8) :
    (packGroups bytes).map groupOfChar = groupsOfBytes bytes := by
  rw [packGroups, List.map_map]
  refine (List.map_congr_left fun group mem => ?_).trans (List.map_id _)
  exact groupOfChar_charOfGroup (lt_of_mem_groupsOfBytes group mem)

/-- No character of a group is the mark of the older form, and one alone is that of the other
form. -/
theorem charOfGroup_ne {group : Nat} (small : group < 128) :
    charOfGroup group ≠ groupMark ∧ (charOfGroup group = byteMark → group = 127) := by
  constructor
  · intro same
    have codes := congrArg Char.toNat same
    rw [toNat_charOfGroup] at codes
    have mark : groupMark.toNat = 65535 := rfl
    omega
  · intro same
    have codes := congrArg Char.toNat same
    rw [toNat_charOfGroup] at codes
    have mark : byteMark.toNat = 0 := rfl
    omega

section

variable {strings : List String} {bytes : List UInt8}

theorem unpack_of_groupChars
    (older : (strings.head?.bind fun first => first.toList.head?) ≠ some byteMark)
    (chars : groupChars strings = packGroups bytes) : unpack strings = .ok bytes := by
  rw [unpack_of_head?_ne older, chars, map_groupOfChar_packGroups]
  exact congrArg Except.ok ((regrouped_bytesOfBits _).unique (regrouped_groupsOfBytes bytes))

/-- Bytes come back from behind the mark. -/
theorem unpack_of_marked (filled : ∀ first ∈ strings.head?, first ≠ "")
    (marked : strings.flatMap String.toList = groupMark :: packGroups bytes) :
    unpack strings = .ok bytes := by
  have first := head?_bind_head? filled
  rw [marked, List.head?_cons] at first
  apply unpack_of_groupChars
  · rw [first]
    decide
  · rw [groupChars, if_pos first, marked, List.tail_cons]

/-- Bytes come back without the mark if their first group is not taken for that of the other
form. -/
theorem unpack_of_unmarked (filled : ∀ first ∈ strings.head?, first ≠ "")
    (plain : strings.flatMap String.toList = packGroups bytes)
    (told : (groupsOfBytes bytes).head? ≠ some 127) : unpack strings = .ok bytes := by
  have first := head?_bind_head? filled
  rw [plain, packGroups, List.head?_map] at first
  have small : ∀ group ∈ (groupsOfBytes bytes).head?, group < 128 :=
    fun group mem => lt_of_mem_groupsOfBytes group (List.mem_of_mem_head? mem)
  apply unpack_of_groupChars
  · rw [first]
    intro same
    obtain ⟨group, mem, char⟩ := Option.map_eq_some_iff.mp same
    exact told (mem.trans (congrArg some ((charOfGroup_ne (small group mem)).2 char)))
  · rw [groupChars, first, if_neg, plain]
    intro same
    obtain ⟨group, mem, char⟩ := Option.map_eq_some_iff.mp same
    exact (charOfGroup_ne (small group mem)).1 char

end

/-- Strings in the older form can always be unpacked, to as many bytes as they have bits for, and
bit by bit these are the bits of the groups.  A cursor comes to the same bytes and finds every group
that it looks for.  So bytes that are packed in the older form, with the mark in front or where it
is not needed, are unpacked as they were, however the characters are cut into strings. -/
theorem unpack_regroups :
    (∀ c, (groupOfChar c : Int) = ((c.toNat : Int) - 1) % 128) ∧
    (∀ strings : List String,
      (strings.head?.bind fun first => first.toList.head?) ≠ some byteMark →
        let groups := (groupChars strings).map groupOfChar
        ∃ bytes, unpack strings = .ok bytes ∧ bytes.length = 7 * groups.length / 8 ∧
          GroupCursor.readBytes groups .start (7 * groups.length / 8) = some bytes ∧
          ∀ place < 8 * bytes.length,
            bitAt 8 (bytes.map UInt8.toNat) place = bitAt 7 groups place) ∧
    ∀ (bytes : List UInt8) (strings : List String), (∀ first ∈ strings.head?, first ≠ "") →
      strings.flatMap String.toList = groupMark :: packGroups bytes ∨
        strings.flatMap String.toList = packGroups bytes ∧
          (groupsOfBytes bytes).head? ≠ some 127 →
      unpack strings = .ok bytes := by
  refine ⟨groupOfChar_eq, fun strings older => ?_, fun bytes strings filled cut => ?_⟩
  · have small : ∀ group ∈ (groupChars strings).map groupOfChar, group < 128 :=
      List.forall_mem_map.mpr fun c _ => groupOfChar_lt c
    have regrouped := regrouped_bytesOfBits ((groupChars strings).map groupOfChar)
    exact ⟨_, unpack_of_head?_ne older, regrouped.length,
      GroupCursor.readBytes_of_regrouped small regrouped, regrouped.spelled⟩
  · rcases cut with marked | ⟨plain, told⟩
    · exact unpack_of_marked filled marked
    · exact unpack_of_unmarked filled plain told

/-- A mark behind an empty string is a group like any other.  Bytes whose first group would be taken
for the mark of the other form come back from behind the mark of this one, and others without. -/
theorem unpack_regroups_sample :
    unpack ["", "\uffffA"] = .ok [126] ∧
      unpack ["\uffff\x00", "", "\x02\x03"] = .ok [0xFF, 0x80] ∧
      unpack ["\x04", "\x01"] = .ok [3] := by
  obtain ⟨_, regroups, packed⟩ := unpack_regroups
  refine ⟨?_, packed _ _ (by decide) (.inl (by decide)),
    packed _ _ (by decide) (.inr (by decide))⟩
  obtain ⟨bytes, read, _, walked, _⟩ := regroups ["", "\uffffA"] (by decide)
  have found : bytes = [126] := Option.some.inj (walked.symm.trans (by decide))
  rw [read, found]

end KotlinMetadata.Packing
