import KotlinMetadata.Decimal.Basic

/-!
# Shortest decimals

A binary number stands for all reals that round to it.  Its shortest decimal
is the one with the fewest digits among them, and of those the nearest to the
number itself.
-/

namespace KotlinMetadata

/-- The magnitude that bits spell, with so many bits of fraction, so many of exponent, and the least
exponent; none for infinities and what is not a number. -/
def Binary.ofBits? (fractionBits exponentBits : Nat) (least : Int) (bits : Nat) : Option Binary :=
  let fraction := bits % Nat.pow 2 fractionBits
  let biased := bits / Nat.pow 2 fractionBits % Nat.pow 2 exponentBits
  if biased = Nat.pow 2 exponentBits - 1 then none
  else if biased = 0 then some ⟨fraction, least⟩
  else some ⟨fraction + Nat.pow 2 fractionBits, least + biased - 1⟩

/-- The same number with a mantissa of 53 bits, if it had fewer. -/
def Binary.widen (number : Binary) : Binary :=
  let shift := 52 - number.mantissa.log2
  ⟨number.mantissa * Nat.pow 2 shift, number.exponent - shift⟩

/-- A decimal in units of a quarter of a binary's last place, both sides cleared of fractions. -/
def Decimal.scaled (decimal : Decimal) (exponent : Int) : Nat :=
  decimal.digits * Nat.pow 10 decimal.exponent.toNat * Nat.pow 2 (2 - exponent).toNat

/-- Quarters of a binary's last place, cleared of the same fractions. -/
def Binary.quarters (number : Binary) (count : Nat) (decimalExponent : Int) : Nat :=
  count * Nat.pow 10 (-decimalExponent).toNat * Nat.pow 2 (number.exponent - 2).toNat

/-- Whether a decimal rounds to a binary with a mantissa of 53 bits or the least exponent.  The ends
of the range round to even mantissas. -/
def Binary.holds (number : Binary) (decimal : Decimal) : Bool :=
  let below := if number.mantissa = Nat.pow 2 52 && -1074 < number.exponent then 1 else 2
  let point := decimal.scaled number.exponent
  let low := number.quarters (4 * number.mantissa - below) decimal.exponent
  let high := number.quarters (4 * number.mantissa + 2) decimal.exponent
  if number.mantissa % 2 = 0 then decide (low ≤ point) && decide (point ≤ high)
  else decide (low < point) && decide (point < high)

/-- How far a decimal is from a binary, in a unit that depends on exponents only. -/
def Binary.distance (number : Binary) (decimal : Decimal) : Nat :=
  let point := decimal.scaled number.exponent
  let value := number.quarters (4 * number.mantissa) decimal.exponent
  (point - value) + (value - point)

/-- The greatest multiple of a power of ten that a binary does not fall below. -/
def Binary.floorAt (number : Binary) (exponent : Int) : Decimal :=
  ⟨number.quarters (4 * number.mantissa) exponent /
    Decimal.scaled ⟨1, exponent⟩ number.exponent, exponent⟩

/-- How many digits a binary has before the point, or less one for every zero behind it. -/
def Binary.magnitude (number : Binary) : Int :=
  ((toString (number.floorAt (-400)).digits).length : Int) - 400

/-- The decimal of so many digits that rounds to a binary, the nearest if there are two; of two that
are equally near, the even one. -/
def Binary.decimalOf? (number : Binary) (count : Nat) : Option Decimal :=
  let below := number.floorAt (number.magnitude - count)
  let above : Decimal := { below with digits := below.digits + 1 }
  let nearest :=
    if number.distance below < number.distance above then below
    else if number.distance above < number.distance below then above
    else if below.digits % 2 = 0 then below
    else above
  [nearest, below, above].find? number.holds

/-- A decimal without zeros at its end, given fuel for as many. -/
def Decimal.dropZeros : Nat → Decimal → Decimal
  | 0, decimal => decimal
  | more + 1, decimal =>
      if decimal.digits % 10 = 0 && decimal.digits ≠ 0 then
        dropZeros more ⟨decimal.digits / 10, decimal.exponent + 1⟩
      else decimal

/-- The shortest decimal that rounds to a binary with a mantissa of 53 bits or the least exponent.
Seventeen digits are always enough. -/
def Binary.shortest (number : Binary) : Decimal :=
  Decimal.dropZeros 17 <|
    ((List.range' 1 17).findSome? number.decimalOf?).getD (number.floorAt (number.magnitude - 17))

end KotlinMetadata
