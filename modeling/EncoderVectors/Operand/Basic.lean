import EncoderVectors.Operand.Register
import EncoderVectors.Operand.Address
import EncoderVectors.Operand.Immediate

/-!
# Operands and the slots they fill

A slot says what an operand position admits; an operand is a value for one slot. Values outside the
range of their slot cannot be built, so nothing later checks ranges.
-/

set_option autoImplicit false

namespace EncoderVectors

/-- What an operand position admits. -/
inductive Slot where
  /-- A register of the given class. -/
  | register (cls : RegisterClass)
  /-- A base register with a displacement. -/
  | address
  /-- A constant in the given role. -/
  | immediate (role : ImmediateRole)
  deriving DecidableEq, Repr

namespace Slot

/-- An integer register other than `x0`, the commonest slot. -/
abbrev general : Slot := .register .general

/-- A floating-point register. -/
abbrev float : Slot := .register .float

/-- The slot a one-letter register mode stands for: `x` general, `f` float, `z` general or zero,
`s` general or stack pointer. -/
def ofMode? : Char → Option Slot
  | 'x' => some (.register .general)
  | 'f' => some (.register .float)
  | 'z' => some (.register .zeroAlias)
  | 's' => some (.register .stackAlias)
  | _ => none

/-- The slot holds a register, of either file. -/
def isRegister : Slot → Bool
  | .register _ => true
  | .address | .immediate _ => false

/-- The name of the slot in messages. -/
def label : Slot → String
  | .register .general => "General"
  | .register .zeroAlias => "GeneralOrZero"
  | .register .stackAlias => "GeneralOrStackPointer"
  | .register .float => "Float"
  | .address => "Address"
  | .immediate role => "Immediate(" ++ role.label ++ ")"

/-- A list of slots in messages, in square brackets. -/
def labels (slots : List Slot) : String :=
  "[" ++ String.intercalate ", " (slots.map label) ++ "]"

end Slot

/-- A value for one slot. -/
inductive Operand where
  /-- A register operand. -/
  | register (value : Register)
  /-- A memory operand. -/
  | address (value : Address)
  /-- A constant operand. -/
  | immediate (value : Immediate)
  deriving DecidableEq, Repr

namespace Operand

/-- The slot the operand fills. -/
def slot : Operand → Slot
  | .register r => .register r.cls
  | .address _ => .address
  | .immediate i => .immediate i.role

/-- The text of an operand. -/
def render (o : Operand) (d : Dialect) : String :=
  match o with
  | .register r => r.render d
  | .address a => a.render d
  | .immediate i => i.render d

end Operand

end EncoderVectors
