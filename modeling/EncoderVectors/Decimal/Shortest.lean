/-!
# Shortest decimals

The decimal of fewest digits that reads back as a given binary floating-point number, and of those
the one nearest to it. A number is `significand * 2 ^ exponent`; the decimals that read back as it
are those between the midpoints to its two neighbours, the midpoints themselves only when the
significand is even. All of it is exact arithmetic on natural numbers.
-/

set_option autoImplicit false

namespace EncoderVectors.Decimal

/-- A finite double: its value is `significand * 2 ^ exponent`. -/
structure Binary where
  /-- The significand, below `2 ^ 53`. -/
  significand : Nat
  /-- The binary exponent. -/
  exponent : Int
  deriving DecidableEq, Repr

/-- The leading bit of a significand, which is not stored: `2 ^ 52`. -/
def leadingBit : Nat := 0x10000000000000

/-- The magnitude held in the bits of a finite double. -/
def Binary.ofBits (bits : UInt64) : Binary :=
  let fraction := bits.toNat % leadingBit
  let biased : Nat := bits.toNat / leadingBit % 2048
  if biased = 0 then ⟨fraction, -1074⟩ else ⟨leadingBit + fraction, (biased : Int) - 1075⟩

/-- A decimal: its value is `digits * 10 ^ exponent`. -/
structure Numeral where
  /-- The digits as one number. -/
  digits : Nat
  /-- The decimal exponent. -/
  exponent : Int
  deriving DecidableEq, Repr

/-- A ratio of natural numbers. -/
structure Ratio where
  /-- The numerator. -/
  num : Nat
  /-- The denominator. -/
  den : Nat
  deriving DecidableEq, Repr

/-- The ratio `n * base ^ exponent`. -/
def Ratio.power (n base : Nat) (exponent : Int) : Ratio :=
  if 0 ≤ exponent then ⟨n * base.pow exponent.toNat, 1⟩ else ⟨n, base.pow exponent.natAbs⟩

/-- The three points that fix which decimals read back as a number: the midpoint below, the number,
and the midpoint above, as numerators over one denominator. -/
structure Window where
  /-- The midpoint below. -/
  low : Nat
  /-- The number itself. -/
  value : Nat
  /-- The midpoint above. -/
  high : Nat
  /-- The common denominator. -/
  den : Nat
  /-- The midpoints read back as the number too. -/
  closed : Bool
  deriving DecidableEq, Repr

/-- The window of a number. Below a power of two the neighbour is only half as far away. -/
def Binary.window (b : Binary) : Window :=
  let unit := Ratio.power 1 2 (b.exponent - 2)
  let below := if b.significand = leadingBit ∧ b.exponent ≠ -1074 then 1 else 2
  { low := (4 * b.significand - below) * unit.num
    value := 4 * b.significand * unit.num
    high := (4 * b.significand + 2) * unit.num
    den := unit.den
    closed := b.significand % 2 = 0 }

/-- A decimal lies in the window. -/
def Window.contains (w : Window) (d : Numeral) : Bool :=
  let r := Ratio.power d.digits 10 d.exponent
  let low := w.low * r.den
  let high := w.high * r.den
  let x := r.num * w.den
  if w.closed then low ≤ x && x ≤ high else low < x && x < high

/-- How far a decimal is from the value of the window, over `w.den` times its own denominator. -/
def Window.distance (w : Window) (d : Numeral) : Nat :=
  let r := Ratio.power d.digits 10 d.exponent
  (r.num * w.den - w.value * r.den) + (w.value * r.den - r.num * w.den)

/-- The greatest decimal with the given exponent that is not above the value. -/
def Window.floor (w : Window) (exponent : Int) : Numeral :=
  let r := Ratio.power 1 10 exponent
  ⟨w.value * r.den / (w.den * r.num), exponent⟩

/-- The decimal with the given exponent that reads back as the number, the nearer one if both
neighbours do. -/
def Window.round? (w : Window) (exponent : Int) : Option Numeral :=
  let down := w.floor exponent
  let up : Numeral := ⟨down.digits + 1, exponent⟩
  match w.contains down, w.contains up with
  | true, true =>
      let fromDown := w.distance down
      let fromUp := w.distance up
      if fromDown < fromUp || (fromDown == fromUp && down.digits % 2 == 0) then some down else some up
  | true, false => some down
  | false, true => some up
  | false, false => none

/-- The decimal exponent of the leading digit: searches downwards from `start`. -/
def Window.leading (w : Window) : Nat → Int → Int
  | 0, start => start
  | tries + 1, start =>
      if (w.floor start).digits = 0 then w.leading tries (start - 1) else start

/-- Tries ever finer exponents. -/
def Window.search (w : Window) : Nat → Int → Numeral
  | 0, exponent => w.floor exponent
  | tries + 1, exponent => (w.round? exponent).getD (w.search tries (exponent - 1))

/-- Moves zeros at the end of the digits into the exponent. -/
def Numeral.strip : Nat → Numeral → Numeral
  | 0, d => d
  | tries + 1, d =>
      if d.digits % 10 = 0 then Numeral.strip tries ⟨d.digits / 10, d.exponent + 1⟩ else d

/-- The shortest decimal of a number other than zero. Seventeen digits always suffice. -/
def shortest (b : Binary) : Numeral :=
  let w := b.window
  (w.search 17 (w.leading 640 309)).strip 17

end EncoderVectors.Decimal
