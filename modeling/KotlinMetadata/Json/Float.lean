import KotlinMetadata.Decimal.Shortest
import KotlinMetadata.Tree.Json

/-!
# Floats as JSON

A float is written with the fewest digits that read back as the same number,
and always with a point or an exponent.  Infinities and what is not a number
are null.
-/

namespace KotlinMetadata.Json

/-- A decimal in JSON.  Up to sixteen places before the point, and as far as four zeros behind it,
there is no exponent. -/
def ofDecimal (decimal : Decimal) : String :=
  let digits := toString decimal.digits
  let places := (digits.length : Int) + decimal.exponent
  let zeros := fun count => String.ofList (List.replicate count '0')
  let split := fun count =>
    String.ofList (digits.toList.take count) ++ "." ++ String.ofList (digits.toList.drop count)
  if 0 ≤ decimal.exponent ∧ places ≤ 16 then digits ++ zeros decimal.exponent.toNat ++ ".0"
  else if 0 < places ∧ places ≤ 16 then split places.toNat
  else if -5 < places ∧ places ≤ 0 then "0." ++ zeros (-places).toNat ++ digits
  else (if digits.length = 1 then digits else split 1) ++ "e" ++ toString (places - 1)

/-- A magnitude with a sign. -/
def ofBinary (negative : Bool) (value : Binary) : Json :=
  let magnitude := if value.mantissa = 0 then "0.0" else ofDecimal value.shortest
  number (if negative then "-" ++ magnitude else magnitude)

/-- A 64-bit float by its bits. -/
def double (bits : UInt64) : Json :=
  ((Binary.ofBits? 52 11 (-1074) bits.toNat).map (ofBinary (Nat.pow 2 63 ≤ bits.toNat))).getD null

/-- A 32-bit float by its bits, shown as the 64-bit float of the same value. -/
def single (bits : UInt32) : Json :=
  ((Binary.ofBits? 23 8 (-149) bits.toNat).map fun magnitude =>
    ofBinary (Nat.pow 2 31 ≤ bits.toNat) magnitude.widen).getD null

/-- Floats as JSON numbers. -/
def floats : FloatForm where
  single := single
  double := double

end KotlinMetadata.Json
