import EncoderVectors.Dialect
import EncoderVectors.Text.Numeral

/-!
# Immediates

A constant held in the instruction word. Its role fixes how many values it may take and how each
dialect writes it.
-/

set_option autoImplicit false

namespace EncoderVectors

/-- What a constant operand stands for. -/
inductive ImmediateRole where
  /-- The non-negative half of a sign-extended twelve-bit field. -/
  | imm12
  /-- A five-bit shift amount. -/
  | shiftAmount
  /-- The upper twenty bits of a word. -/
  | upper20
  /-- A twelve-bit number of a control and status register. -/
  | csr
  /-- A five-bit value for a control and status register. -/
  | csrValue
  deriving DecidableEq, Repr

namespace ImmediateRole

/-- The number of values the role admits: they run from 0 up to, not including, this bound. -/
def bound : ImmediateRole → Nat
  | .imm12 => 2048
  | .shiftAmount => 32
  | .upper20 => 1048576
  | .csr => 4096
  | .csrValue => 32

/-- Every role admits a value. -/
theorem bound_pos (role : ImmediateRole) : 0 < role.bound := by
  cases role <;> decide

/-- The name of the role in messages. -/
def label : ImmediateRole → String
  | .imm12 => "Imm12"
  | .shiftAmount => "ShiftAmount"
  | .upper20 => "Upper20"
  | .csr => "Csr"
  | .csrValue => "CsrValue"

end ImmediateRole

/-- A constant in some role. -/
structure Immediate where
  /-- What the constant stands for. -/
  role : ImmediateRole
  /-- The raw value. -/
  value : Nat
  /-- The role admits the value. -/
  value_lt : value < role.bound
  deriving DecidableEq, Repr

namespace Immediate

/-- The constant of that role and value, if the role admits it. -/
def ofValue? (role : ImmediateRole) (value : Nat) : Option Immediate :=
  if h : value < role.bound then some ⟨role, value, h⟩ else none

/-- The text of a constant. A call takes the full 32-bit value of an upper immediate, the assembler
only its upper twenty bits. -/
def render (i : Immediate) (d : Dialect) : String :=
  match i.role, d with
  | .imm12, .call | .shiftAmount, .call => Text.decimal i.value ++ "u"
  | .upper20, .call => Text.hex i.value ++ "000"
  | .csr, .call | .csrValue, .call | .csrValue, .assembly => Text.decimal i.value
  | .imm12, .assembly | .shiftAmount, .assembly | .upper20, .assembly | .csr, .assembly =>
      Text.hex i.value

end Immediate

end EncoderVectors
