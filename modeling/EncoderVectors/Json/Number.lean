/-!
# Numbers in JSON text

A number is read in two steps: its text by the grammar, then its value. An integer of 64 bits keeps
its value exactly. Everything else becomes a double: the digits are gathered into a 64-bit
significand, digits that no longer fit are dropped and only counted, and the significand is scaled by
a power of ten. A double out of range is refused.
-/

set_option autoImplicit false

namespace EncoderVectors.Json

/-- The text of a number, taken apart. -/
structure NumberText where
  /-- There is a minus sign. -/
  negative : Bool
  /-- The digits before the point. -/
  whole : List Char
  /-- The digits after the point, if there is one. -/
  fraction : Option (List Char)
  /-- The exponent, if there is one: whether it is negative, and its digits. -/
  exponent : Option (Bool × List Char)
  deriving DecidableEq, Repr

/-- Reads as many digits as there are. -/
def scanDigits (cs : List Char) : List Char × List Char :=
  (cs.takeWhile Char.isDigit, cs.dropWhile Char.isDigit)

/-- Reads the digits before the point: a zero alone, or digits that start with no zero. -/
def scanWhole (cs : List Char) : Option (List Char × List Char) :=
  match scanDigits cs with
  | ([], _) => none
  | ('0' :: _ :: _, _) => none
  | (digits, rest) => some (digits, rest)

/-- Reads a point and the digits after it, of which there must be one. -/
def scanFraction : List Char → Option (Option (List Char) × List Char)
  | '.' :: cs =>
      match scanDigits cs with
      | ([], _) => none
      | (digits, rest) => some (some digits, rest)
  | cs => some (none, cs)

/-- Reads the digits of an exponent, of which there must be one. -/
def scanExponentDigits (negative : Bool) (cs : List Char) :
    Option (Option (Bool × List Char) × List Char) :=
  match scanDigits cs with
  | ([], _) => none
  | (digits, rest) => some (some (negative, digits), rest)

/-- Reads the sign and the digits of an exponent. -/
def scanSignedExponent : List Char → Option (Option (Bool × List Char) × List Char)
  | '+' :: cs => scanExponentDigits false cs
  | '-' :: cs => scanExponentDigits true cs
  | cs => scanExponentDigits false cs

/-- Reads an exponent, if there is one. -/
def scanExponent : List Char → Option (Option (Bool × List Char) × List Char)
  | 'e' :: cs | 'E' :: cs => scanSignedExponent cs
  | cs => some (none, cs)

/-- Reads the text of a number. -/
def scanNumber (cs : List Char) : Option (NumberText × List Char) := do
  let (negative, cs) :=
    match cs with
    | '-' :: rest => (true, rest)
    | _ => (false, cs)
  let (whole, cs) ← scanWhole cs
  let (fraction, cs) ← scanFraction cs
  let (exponent, cs) ← scanExponent cs
  return (⟨negative, whole, fraction, exponent⟩, cs)

/-- The value of a number. -/
inductive Number where
  /-- An integer that fits 64 bits, signed or unsigned. -/
  | integer (value : Int)
  /-- A double, by its bits. -/
  | float (bits : UInt64)
  deriving DecidableEq, Repr

/-- Appends digits to a significand as long as it fits 64 bits; yields the digits left. -/
def absorb (significand : Nat) : List Char → Nat × List Char
  | [] => (significand, [])
  | c :: rest =>
      let next := significand * 10 + (c.toNat - 48)
      if next < UInt64.size then absorb next rest else (significand, c :: rest)

/-- The double of a power of ten, for exponents up to 308. -/
def powerOfTen (n : Nat) : Float :=
  Float.ofScientific 1 false n

/-- A double divided by powers of ten until the exponent is used up. -/
def shrink : Nat → Float → Nat → Float
  | 0, f, _ => f
  | tries + 1, f, exponent =>
      if exponent ≤ 308 then f / powerOfTen exponent
      else if f == 0.0 then f
      else shrink tries (f / powerOfTen 308) (exponent - 308)

/-- The double of a significand and a power of ten, unless it is out of range. Two divisions by the
greatest power of ten already make any significand zero. -/
def scale? (significand : Nat) (exponent : Int) : Option Float :=
  let f := (UInt64.ofNat significand).toFloat
  if exponent < 0 then some (shrink 4 f exponent.natAbs)
  else if exponent ≤ 308 then
    let scaled := f * powerOfTen exponent.toNat
    if scaled.isInf then none else some scaled
  else if significand = 0 then some f
  else none

/-- Exponents beyond this one are not looked at any closer. -/
def exponentLimit : Nat := 2147483647

/-- The double of the text of a number, without its sign. -/
def magnitude? (t : NumberText) : Option Float :=
  let (significand, dropped) := absorb 0 t.whole
  let fraction := t.fraction.getD []
  let (significand, left) := absorb significand fraction
  let shift : Int := (dropped.length : Int) - ((fraction.length : Int) - left.length)
  match t.exponent with
  | none => scale? significand shift
  | some (negative, digits) =>
      let exponent := Nat.ofDigitChars 10 digits 0
      if exponent ≤ exponentLimit then
        scale? significand (if negative then shift - exponent else shift + exponent)
      else if significand = 0 || negative then some 0.0
      else none

/-- The magnitude of the least signed integer of 64 bits. -/
def signedLimit : Nat := 0x8000000000000000

/-- The value of the text of a number, unless it is out of range. Minus zero is a double. -/
def value? (t : NumberText) : Option Number :=
  let n := Nat.ofDigitChars 10 t.whole 0
  if t.fraction.isNone && t.exponent.isNone && !t.negative && n < UInt64.size then some (.integer n)
  else if t.fraction.isNone && t.exponent.isNone && t.negative && 0 < n && n ≤ signedLimit then
    some (.integer (-(n : Int)))
  else (magnitude? t).map fun f => .float (if t.negative then (-f).toBits else f.toBits)

end EncoderVectors.Json
