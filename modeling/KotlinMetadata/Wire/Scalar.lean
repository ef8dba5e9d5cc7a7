/-!
# Scalars as words

Every scalar of the format travels as a word: 32-bit integers are widened with
their sign, signed 64-bit integers are folded so that small magnitudes stay
small, and floating-point numbers are their IEEE-754 bits in little-endian
order.  A narrowing reader keeps the low bits only.
-/

namespace KotlinMetadata.Wire

/-- A 32-bit integer widened with its sign. -/
def wordOfInt32 (value : Int32) : UInt64 :=
  value.toInt64.toUInt64

/-- The low 32 bits of a word, as a signed integer. -/
def int32OfWord (word : UInt64) : Int32 :=
  word.toUInt32.toInt32

/-- One for true, zero for false. -/
def wordOfBool (value : Bool) : UInt64 :=
  if value then 1 else 0

/-- Any word but zero is true. -/
def boolOfWord (word : UInt64) : Bool :=
  word != 0

/-- Folds the sign into the lowest bit: `0, -1, 1, -2, …` become `0, 1, 2, 3, …`. -/
def zigzag (value : Int64) : UInt64 :=
  let magnitude := value.toInt.natAbs
  if value < 0 then UInt64.ofNat (2 * magnitude - 1) else UInt64.ofNat (2 * magnitude)

/-- Takes the sign back out of the lowest bit. -/
def unzigzag (word : UInt64) : Int64 :=
  let half : Int := word.toNat / 2
  if word.toNat % 2 = 0 then Int64.ofInt half else Int64.ofInt (-half - 1)

/-- The low `width` bytes of a number, lowest byte first. -/
def littleEndian : Nat → Nat → List UInt8
  | 0, _ => []
  | width + 1, n => UInt8.ofNat (n % 256) :: littleEndian width (n / 256)

/-- The number that bytes spell, lowest byte first. -/
def ofLittleEndian : List UInt8 → Nat
  | [] => 0
  | byte :: rest => byte.toNat + 256 * ofLittleEndian rest

@[simp]
theorem length_littleEndian (width n : Nat) : (littleEndian width n).length = width := by
  induction width generalizing n with
  | zero => rfl
  | succ width ih => simp [littleEndian, ih]

/-- Bytes written for a number that fits add up to it again. -/
theorem ofLittleEndian_littleEndian (width n : Nat) (h : n < Nat.pow 256 width) :
    ofLittleEndian (littleEndian width n) = n := by
  induction width generalizing n with
  | zero => simp [littleEndian, ofLittleEndian] at h ⊢; omega
  | succ width ih =>
      have smaller : n / 256 < Nat.pow 256 width := by
        rw [Nat.div_lt_iff_lt_mul (by decide)]
        exact h
      simp only [littleEndian, ofLittleEndian, ih _ smaller, UInt8.toNat_ofNat']
      omega

end KotlinMetadata.Wire
