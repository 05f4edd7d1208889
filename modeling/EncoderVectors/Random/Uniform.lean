import EncoderVectors.Random.WordStream

/-!
# Uniform draws

A number below a bound is drawn from raw words without bias: the raw word is multiplied by the bound,
the upper half of the product is the number, and the word is refused when the lower half lies beyond
a zone chosen so that every number keeps equally many words. Three methods are in use; they differ in
the width of the raw word and in the zone.

A draw goes on until a word is kept. There are streams of which no word ever is, so the definition has a
limit that the draw has not (`drawPatience`). `Draws`, in `EncoderVectors.Proofs.Random.Rejection`, is
the draw without it; the two agree on every stream that has a word to keep before the limit
(`Draws.drawBelow`). What is said about `drawBelow` past the limit says nothing about draws.
-/

set_option autoImplicit false

namespace EncoderVectors

/-- How a number is drawn from raw words. -/
inductive DrawMethod where
  /-- 32-bit words; refuses no more words than it must. -/
  | modulus
  /-- 32-bit words; the zone is the bound moved up as far as it goes. -/
  | shifted
  /-- 64-bit words; the zone is the bound moved up as far as it goes. -/
  | wide
  deriving DecidableEq, Repr

namespace DrawMethod

/-- The bits of a raw word. -/
def bits : DrawMethod → Nat
  | .modulus | .shifted => 32
  | .wide => 64

/-- The number of raw words. -/
def size : DrawMethod → Nat
  | .modulus | .shifted => UInt32.size
  | .wide => UInt64.size

/-- The greatest lower half of a product that is kept, for numbers below `bound`. -/
def zone (m : DrawMethod) (bound : Nat) : Nat :=
  match m with
  | .modulus => (m.size - 1) - (m.size - bound) % bound
  | .shifted | .wide => bound <<< (m.bits - (bound.log2 + 1)) - 1

/-- The raw word is kept. -/
def accepts (m : DrawMethod) (bound raw : Nat) : Bool :=
  raw * bound % m.size ≤ m.zone bound

/-- The number a kept raw word stands for. -/
def number (m : DrawMethod) (bound : Nat) (pos : 0 < bound) (raw : Fin m.size) : Fin bound :=
  ⟨raw.val * bound / m.size,
    Nat.div_lt_of_lt_mul (Nat.mul_lt_mul_of_pos_right raw.isLt pos)⟩

end DrawMethod

section Draw

variable {σ : Type} [WordStream σ]

/-- Takes a raw word: one word of the stream, or two with the low half first. -/
def rawWord (m : DrawMethod) : StateM σ (Fin m.size) :=
  match m with
  | .modulus | .shifted => do
      let w ← nextWord
      return ⟨w.toNat, w.toNat_lt_size⟩
  | .wide => do
      let low ← nextWord
      let high ← nextWord
      return ⟨low.toNat + UInt32.size * high.toNat, by
        have h₁ := low.toNat_lt_size
        have h₂ := high.toNat_lt_size
        simp only [DrawMethod.size, UInt32.size, UInt64.size] at *
        omega⟩

/-- Draws a number below `bound`, refusing at most `patience` raw words. When patience runs out there is
no number to be had yet, and the least one is made up in its place. -/
def drawPatiently (m : DrawMethod) (bound : Nat) (pos : 0 < bound) : Nat → StateM σ (Fin bound)
  | 0 => return ⟨0, pos⟩
  | patience + 1 => do
      let raw ← rawWord m
      if m.accepts bound raw.val then return m.number bound pos raw
      else drawPatiently m bound pos patience

/-- Raw words refused before a number is made up. At least every other raw word is kept, so no stream of
good words comes near it. -/
def drawPatience : Nat := 1024

/-- Draws a number below `bound`, as long as patience lasts. -/
def drawBelow (m : DrawMethod) (bound : Nat) (pos : 0 < bound) : StateM σ (Fin bound) :=
  drawPatiently m bound pos drawPatience

end Draw

end EncoderVectors
