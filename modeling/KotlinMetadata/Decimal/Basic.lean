/-!
# Binary and decimal numbers

Magnitudes as a whole number times a power of two or of ten, and where the
decimals end that a float of 64 bits can stand for.
-/

namespace KotlinMetadata

/-- The number `mantissa * 2 ^ exponent`. -/
structure Binary where
  mantissa : Nat
  exponent : Int
  deriving DecidableEq, Repr

/-- The number `digits * 10 ^ exponent`. -/
structure Decimal where
  digits : Nat
  exponent : Int
  deriving DecidableEq, Repr

/-- Whether a decimal rounds to infinity as a float of 64 bits.  It does from the middle between the
greatest float and the power of two that would follow it, both sides cleared of fractions. -/
def Decimal.overflows (decimal : Decimal) : Bool :=
  (Nat.pow 2 1024 - Nat.pow 2 970) * Nat.pow 10 (-decimal.exponent).toNat ≤
    decimal.digits * Nat.pow 10 decimal.exponent.toNat

end KotlinMetadata
