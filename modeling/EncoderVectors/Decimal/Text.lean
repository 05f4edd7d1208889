import EncoderVectors.Decimal.Shortest
import EncoderVectors.Text.Numeral

/-!
# Floating-point numbers as text

Numbers from `1e-5` up to, not including, `1e16` are written positionally with at least one digit
after the point; all others in scientific form with a signed exponent.
-/

set_option autoImplicit false

namespace EncoderVectors.Decimal

/-- The least exponent of the leading digit that is written positionally. -/
def leastPositional : Int := -5

/-- The exponents of the leading digit from here on are not written positionally. -/
def positionalEnd : Int := 16

/-- The digits of a decimal. -/
def Numeral.digitChars (d : Numeral) : List Char :=
  Nat.toDigits 10 d.digits

/-- The exponent of the leading digit. -/
def Numeral.leading (d : Numeral) : Int :=
  d.exponent + d.digitChars.length - 1

/-- Digits with a point among them, before them or after them. -/
def Numeral.positional (d : Numeral) : String :=
  let digits := d.digitChars
  if d.leading < 0 then
    "0." ++ String.ofList (List.replicate (d.leading.natAbs - 1) '0' ++ digits)
  else
    let whole := d.leading.toNat + 1
    let filled := digits ++ List.replicate (whole - digits.length) '0'
    let fraction := filled.drop whole
    String.ofList (filled.take whole) ++ "." ++
      (if fraction.isEmpty then "0" else String.ofList fraction)

/-- One digit, the others after a point, and the exponent with its sign. -/
def Numeral.scientific (d : Numeral) : String :=
  let digits := d.digitChars
  String.ofList (digits.take 1) ++
    (if digits.length ≤ 1 then "" else "." ++ String.ofList (digits.drop 1)) ++
    "e" ++ (if d.leading < 0 then "-" else "+") ++ Text.decimal d.leading.natAbs

/-- The text of a magnitude. -/
def magnitudeText (b : Binary) : String :=
  if b.significand = 0 then "0.0"
  else
    let d := shortest b
    if leastPositional ≤ d.leading ∧ d.leading < positionalEnd then d.positional
    else d.scientific

/-- The bit that tells a negative double: `2 ^ 63`. -/
def signBit : Nat := 0x8000000000000000

/-- The text of the finite double with the given bits. -/
def text (bits : UInt64) : String :=
  (if signBit ≤ bits.toNat then "-" else "") ++ magnitudeText (Binary.ofBits bits)

end EncoderVectors.Decimal
