import EncoderVectors.Operand.Basic
import EncoderVectors.Atomic
import EncoderVectors.Rounding
import EncoderVectors.Label

/-!
# Shapes

A shape fixes everything about an instruction but its name and the values of its operands: how the
operands are laid out, the rounding mode, and whether it takes a label. Not every combination makes
sense; `Shape.fault?` names the first thing wrong with one.
-/

set_option autoImplicit false

namespace EncoderVectors

/-- How the operands of an instruction are laid out. -/
inductive Layout where
  /-- Operands in the same order in both dialects. -/
  | slots (slots : List Slot)
  /-- An atomic memory operation with a fixed ordering. -/
  | atomic (kind : AtomicKind) (ordering : AtomicOrdering)
  /-- A fence with a predecessor and a successor set. -/
  | fence
  deriving DecidableEq, Repr

namespace Layout

/-- The slots that operands fill; a fence has none. -/
def operandSlots : Layout → List Slot
  | .slots kinds => kinds
  | .atomic kind _ => List.replicate kind.registers .general
  | .fence => []

end Layout

/-- What an instruction looks like apart from its name and its operand values. -/
structure Shape where
  /-- How the operands are laid out. -/
  layout : Layout
  /-- The rounding mode, if the instruction carries one. -/
  rounding : Option Rounding := none
  /-- The kind of control transfer, if the instruction takes a label. -/
  transfer : Option Transfer := none
  deriving DecidableEq, Repr

namespace Shape

/-- What can be wrong with a shape. -/
inductive Fault where
  /-- A rounding mode, but no float register to round. -/
  | roundingWithoutFloat
  /-- A label beside an operand that is no register. -/
  | labelBesideValue
  /-- A rounding mode or a label on an atomic operation or a fence. -/
  | fixedLayout
  deriving DecidableEq, Repr

/-- The wording of what is wrong. -/
def Fault.message : Fault → String
  | .roundingWithoutFloat => "rounding mode on a format without float registers"
  | .labelBesideValue => "multi-form format with non-register operands"
  | .fixedLayout => "atomic and fence formats take no rounding or label"

/-- The first thing wrong with the shape. -/
def fault? (s : Shape) : Option Fault :=
  match s.layout with
  | .slots slots =>
      if s.rounding.isSome && !slots.contains .float then some .roundingWithoutFloat
      else if s.transfer.isSome && !slots.all Slot.isRegister then some .labelBesideValue
      else none
  | .atomic _ _ | .fence =>
      if s.rounding.isSome || s.transfer.isSome then some .fixedLayout else none

/-- Operands in the given slots and nothing else. -/
def ofSlots (slots : List Slot) : Shape := { layout := .slots slots }

/-- No operands at all. -/
def bare : Shape := ofSlots []

/-- An atomic memory operation. -/
def atomic (kind : AtomicKind) (ordering : AtomicOrdering) : Shape :=
  { layout := .atomic kind ordering }

/-- A memory fence. -/
def fence : Shape := { layout := .fence }

/-- The same shape with a rounding mode. -/
def rounded (s : Shape) (rounding : Rounding) : Shape := { s with rounding := some rounding }

/-- The same shape with a label. -/
def labelled (s : Shape) (transfer : Transfer) : Shape := { s with transfer := some transfer }

/-- Register slots given by one letter each; fails with the first letter that stands for no slot. -/
def ofModes (modes : String) : Except Char Shape :=
  (modes.toList.mapM fun c => (Slot.ofMode? c).elim (Except.error c) Except.ok).map ofSlots

/-- The ordering of an atomic shape. -/
def ordering (s : Shape) : Option AtomicOrdering :=
  match s.layout with
  | .atomic _ ordering => some ordering
  | .slots _ | .fence => none

/-- The targets of the forms one instance is emitted in: all three for a control transfer, and one
form without a target for everything else. -/
def targets (s : Shape) : List (Option Target) :=
  match s.transfer with
  | some _ => Target.all.map some
  | none => [none]

/-- The number of instruction words one instance is emitted as. -/
def forms (s : Shape) : Nat :=
  s.targets.length

end Shape

end EncoderVectors
