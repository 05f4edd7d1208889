import EncoderVectors.Operand.Basic
import EncoderVectors.Barrier
import EncoderVectors.Random.Uniform

/-!
# Drawing operands

Each slot draws uniformly from the values it admits. An address draws its base first and then its
displacement.
-/

set_option autoImplicit false

namespace EncoderVectors

variable {σ : Type} [WordStream σ]

/-- Every class has a register. -/
theorem RegisterClass.size_pos (c : RegisterClass) : 0 < c.size := by
  cases c <;> decide

/-- Draws a register of a class. -/
def Register.draw (c : RegisterClass) : StateM σ Register := do
  let i ← drawBelow .modulus c.size c.size_pos
  return Register.nth c i

/-- Draws an address. -/
def Address.draw : StateM σ Address := do
  let i ← drawBelow .modulus 31 (by decide)
  let j ← drawBelow .modulus 4096 (by decide)
  return Address.nth i j

/-- Draws a constant for a role. -/
def Immediate.draw (role : ImmediateRole) : StateM σ Immediate := do
  let i ← drawBelow .shifted role.bound role.bound_pos
  return ⟨role, i.val, i.isLt⟩

/-- Draws an operand for a slot. -/
def Operand.draw : Slot → StateM σ Operand
  | .register c => return .register (← Register.draw c)
  | .address => return .address (← Address.draw)
  | .immediate role => return .immediate (← Immediate.draw role)

/-- Draws a barrier set. -/
def Barrier.draw : StateM σ Barrier := do
  let i ← drawBelow .wide 7 (by decide)
  return Barrier.nth i

end EncoderVectors
