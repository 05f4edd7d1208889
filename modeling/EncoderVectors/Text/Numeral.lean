/-!
# Numerals

Decimal and hexadecimal spellings of numbers, and the reader of unsigned decimals that a command
line takes. Digits are the lowercase ones; nothing is padded unless a width is asked for.
-/

set_option autoImplicit false

namespace EncoderVectors.Text

/-- The decimal spelling, without leading zeros. -/
def decimal (n : Nat) : String :=
  String.ofList (Nat.toDigits 10 n)

/-- The decimal spelling of an integer: a minus sign when it is negative, then its magnitude. -/
def signedDecimal (z : Int) : String :=
  if z < 0 then "-" ++ decimal z.natAbs else decimal z.natAbs

/-- The hexadecimal digits, without leading zeros and without a base mark. -/
def hexDigits (n : Nat) : String :=
  String.ofList (Nat.toDigits 16 n)

/-- The hexadecimal spelling with its base mark, such as `0x1f`. -/
def hex (n : Nat) : String :=
  "0x" ++ hexDigits n

/-- Hexadecimal digits filled up with zeros on the left to at least `width` digits. -/
def paddedHexDigits (width n : Nat) : String :=
  let digits := Nat.toDigits 16 n
  String.ofList (List.replicate (width - digits.length) '0' ++ digits)

/-- Reads an unsigned decimal: an optional plus sign, then at least one digit and nothing else. -/
def readUnsigned? (text : String) : Option Nat :=
  let digits :=
    match text.toList with
    | '+' :: rest => rest
    | chars => chars
  if digits.isEmpty || !digits.all Char.isDigit then none
  else some (Nat.ofDigitChars 10 digits 0)

/-- Reads an unsigned decimal that fits 64 bits. -/
def readWord64? (text : String) : Option UInt64 :=
  match readUnsigned? text with
  | some n => if n < UInt64.size then some n.toUInt64 else none
  | none => none

end EncoderVectors.Text
