import KotlinMetadata.Wire.Varint

/-!
# The shortest varint of a number

A number can be spelled by varints of many lengths, since groups of zeros may
follow its highest bits.  No two varints of one length spell the same number,
so there is one shortest varint of each number, and this is the one that is
written.
-/

namespace KotlinMetadata.Wire

/-- A varint spells a number, and no shorter one does. -/
structure ShortestVarint (n : Nat) (groups : List UInt8) : Prop where
  shape : IsVarint groups
  value : groupsValue groups = n
  least : ∀ other, IsVarint other → groupsValue other = n → groups.length ≤ other.length

/-- A varint has at least one byte. -/
theorem IsVarint.length_pos {groups : List UInt8} (shape : IsVarint groups) :
    0 < groups.length := by
  cases groups with
  | nil => exact shape.elim
  | cons b groups => exact Nat.succ_pos _

/-- Varints of one length that spell the same number are the same. -/
theorem IsVarint.eq_of_groupsValue_eq {groups other : List UInt8} (shape : IsVarint groups)
    (otherShape : IsVarint other) (length_eq : groups.length = other.length)
    (value_eq : groupsValue groups = groupsValue other) : groups = other := by
  induction groups generalizing other with
  | nil => exact shape.elim
  | cons b groups ih =>
      cases other with
      | nil => exact otherShape.elim
      | cons c other =>
          have tails : groups.length = other.length := Nat.succ.inj length_eq
          simp only [groupsValue] at value_eq
          cases groups with
          | nil =>
              obtain rfl : other = [] := List.length_eq_zero_iff.mp tails.symm
              have left : b.toNat < 128 := shape
              have right : c.toNat < 128 := otherShape
              simp only [groupsValue] at value_eq
              rw [UInt8.toNat_inj.mp (by omega : b.toNat = c.toNat)]
          | cons b' groups =>
              obtain ⟨c', other, rfl⟩ := List.exists_cons_of_length_eq_add_one tails.symm
              rcases shape with ⟨left, shape⟩
              rcases otherShape with ⟨right, otherShape⟩
              have left : 128 ≤ b.toNat := left
              have right : 128 ≤ c.toNat := right
              have small := b.toNat_lt
              have otherSmall := c.toNat_lt
              have heads : b = c := UInt8.toNat_inj.mp (by omega)
              rw [heads, ih shape otherShape tails (by omega)]

/-- Nothing shorter than the groups of a number spells it. -/
theorem length_varintGroups_le_of_groupsValue (k : Nat) {other : List UInt8}
    (shape : IsVarint other) : (varintGroups k (groupsValue other)).length ≤ other.length := by
  induction k generalizing other with
  | zero =>
      cases other with
      | nil => exact shape.elim
      | cons b rest => simp [varintGroups]
  | succ k ih =>
      cases other with
      | nil => exact shape.elim
      | cons b rest =>
          unfold varintGroups
          split
          · simp
          · rename_i large
            have tail : groupsValue (b :: rest) / 128 = groupsValue rest := by
              simp only [groupsValue]
              omega
            rw [tail, List.length_cons, List.length_cons]
            refine Nat.succ_le_succ (ih ?_)
            cases rest with
            | nil =>
                simp only [groupsValue] at large
                omega
            | cons c rest => exact shape.2

theorem groupsValue_encodeVarint (word : UInt64) : groupsValue (encodeVarint word) = word.toNat :=
  groupsValue_varintGroups 9 _ (Nat.lt_of_lt_of_le word.toNat_lt (by decide))

/-- The varint that is written for a word is the shortest one. -/
theorem shortestVarint_iff {word : UInt64} {groups : List UInt8} :
    ShortestVarint word.toNat groups ↔ groups = encodeVarint word := by
  have written : ∀ other, IsVarint other → groupsValue other = word.toNat →
      (encodeVarint word).length ≤ other.length := by
    intro other shape value
    rw [encodeVarint, ← value]
    exact length_varintGroups_le_of_groupsValue 9 shape
  constructor
  · intro shortest
    have short := shortest.least _ (isVarint_encodeVarint word) (groupsValue_encodeVarint word)
    refine shortest.shape.eq_of_groupsValue_eq (isVarint_encodeVarint word) ?_ ?_
    · exact Nat.le_antisymm short (written groups shortest.shape shortest.value)
    · rw [shortest.value, groupsValue_encodeVarint]
  · rintro rfl
    exact ⟨isVarint_encodeVarint word, groupsValue_encodeVarint word, written⟩

end KotlinMetadata.Wire
