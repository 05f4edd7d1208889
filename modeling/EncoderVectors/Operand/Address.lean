import EncoderVectors.Dialect
import EncoderVectors.Text.Numeral

/-!
# Addresses

A memory operand: an integer base register other than `x0` and a displacement of twelve signed bits.
-/

set_option autoImplicit false

namespace EncoderVectors

/-- A base register and a signed displacement. -/
structure Address where
  /-- The index of the base register. -/
  base : Nat
  /-- The displacement in bytes. -/
  offset : Int
  /-- The base is never `x0`. -/
  base_pos : 1 ≤ base
  /-- There are 32 integer registers. -/
  base_lt : base < 32
  /-- The displacement fits twelve signed bits from below. -/
  offset_ge : -2048 ≤ offset
  /-- The displacement fits twelve signed bits from above. -/
  offset_lt : offset < 2048
  deriving DecidableEq, Repr

namespace Address

/-- The address with that base and displacement, if both are in range. -/
def ofParts? (base : Nat) (offset : Int) : Option Address :=
  if h : (1 ≤ base ∧ base < 32) ∧ -2048 ≤ offset ∧ offset < 2048 then
    some ⟨base, offset, h.1.1, h.1.2, h.2.1, h.2.2⟩
  else none

/-- The address counted from the least base and the least displacement. -/
def nth (i : Fin 31) (j : Fin 4096) : Address where
  base := 1 + i.val
  offset := -2048 + (j.val : Int)
  base_pos := Nat.le_add_right _ _
  base_lt := by omega
  offset_ge := by omega
  offset_lt := by omega

/-- The text of an address: `Address(x5, -16)` in a call, `-16(x5)` in assembly. -/
def render (a : Address) : Dialect → String
  | .call => "Address(x" ++ Text.decimal a.base ++ ", " ++ Text.signedDecimal a.offset ++ ")"
  | .assembly => Text.signedDecimal a.offset ++ "(x" ++ Text.decimal a.base ++ ")"

end Address

end EncoderVectors
