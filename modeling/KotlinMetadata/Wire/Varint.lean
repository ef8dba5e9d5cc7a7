/-!
# Base-128 numbers

A number is written seven bits a byte, low group first; every byte but the
last has its high bit set.  Ten groups hold any 64-bit word, so writing never
needs more, and a reader that is given more bits than a word has drops them.
The main facts are that a written word reads back as itself, that its form
ends at the first byte without the high bit, and that it has one to ten bytes.
-/

namespace KotlinMetadata.Wire

/-- The groups of `n`, low one first, in at most `k + 1` bytes. -/
def varintGroups : Nat → Nat → List UInt8
  | 0, n => [UInt8.ofNat n]
  | k + 1, n =>
      if n < 128 then [UInt8.ofNat n]
      else UInt8.ofNat (n % 128 + 128) :: varintGroups k (n / 128)

/-- The base-128 form of a word. -/
def encodeVarint (word : UInt64) : List UInt8 :=
  varintGroups 9 word.toNat

/-- The number that a sequence of groups spells. -/
def groupsValue : List UInt8 → Nat
  | [] => 0
  | byte :: rest => byte.toNat % 128 + 128 * groupsValue rest

/-- The word that a sequence of groups spells; bits past the 64th are dropped. -/
def decodeVarint (groups : List UInt8) : UInt64 :=
  UInt64.ofNat (groupsValue groups)

/-- The shape of a varint: continued bytes up to a single last one. -/
def IsVarint : List UInt8 → Prop
  | [] => False
  | [byte] => byte < 128
  | byte :: rest => 128 ≤ byte ∧ IsVarint rest

/-- Groups add up to the number they were cut from. -/
theorem groupsValue_varintGroups (k n : Nat) (h : n < Nat.pow 128 (k + 1)) :
    groupsValue (varintGroups k n) = n := by
  induction k generalizing n with
  | zero =>
      have small : n < 128 := h
      simp only [varintGroups, groupsValue, UInt8.toNat_ofNat']
      omega
  | succ k ih =>
      unfold varintGroups
      split
      · simp only [groupsValue, UInt8.toNat_ofNat']
        omega
      · have smaller : n / 128 < Nat.pow 128 (k + 1) := by
          rw [Nat.div_lt_iff_lt_mul (by decide)]
          exact h
        simp only [groupsValue, UInt8.toNat_ofNat', ih _ smaller]
        omega

/-- A written word reads back as itself. -/
@[simp]
theorem decodeVarint_encodeVarint (word : UInt64) :
    decodeVarint (encodeVarint word) = word := by
  have bound : word.toNat < Nat.pow 128 (9 + 1) :=
    Nat.lt_of_lt_of_le word.toNat_lt (by decide)
  simp [decodeVarint, encodeVarint, groupsValue_varintGroups 9 _ bound]

theorem varintGroups_ne_nil (k n : Nat) : varintGroups k n ≠ [] := by
  cases k with
  | zero => simp [varintGroups]
  | succ k => unfold varintGroups; split <;> simp

/-- What is written has the shape of a varint. -/
theorem isVarint_varintGroups (k n : Nat) (h : n < Nat.pow 128 (k + 1)) :
    IsVarint (varintGroups k n) := by
  induction k generalizing n with
  | zero =>
      have small : n < 128 := h
      simp only [varintGroups, IsVarint, UInt8.lt_iff_toNat_lt, UInt8.toNat_ofNat']
      simp
      omega
  | succ k ih =>
      unfold varintGroups
      split
      · simp only [IsVarint, UInt8.lt_iff_toNat_lt, UInt8.toNat_ofNat']
        simp
        omega
      · have smaller : n / 128 < Nat.pow 128 (k + 1) := by
          rw [Nat.div_lt_iff_lt_mul (by decide)]
          exact h
        have tail := ih _ smaller
        obtain ⟨first, rest, shape⟩ := List.exists_cons_of_ne_nil (varintGroups_ne_nil k (n / 128))
        rw [shape] at tail ⊢
        refine ⟨?_, tail⟩
        rw [UInt8.le_iff_toNat_le, UInt8.toNat_ofNat']
        simp
        omega

/-- The form of a word has the shape of a varint. -/
theorem isVarint_encodeVarint (word : UInt64) : IsVarint (encodeVarint word) :=
  isVarint_varintGroups 9 _ (Nat.lt_of_lt_of_le word.toNat_lt (by decide))

/-- No form is longer than its allowance of groups. -/
theorem length_varintGroups_le (k n : Nat) : (varintGroups k n).length ≤ k + 1 := by
  induction k generalizing n with
  | zero => simp [varintGroups]
  | succ k ih =>
      unfold varintGroups
      split
      · simp
      · simpa using ih (n / 128)

/-- A word takes at most ten bytes. -/
theorem length_encodeVarint_le (word : UInt64) : (encodeVarint word).length ≤ 10 :=
  length_varintGroups_le 9 _

end KotlinMetadata.Wire
