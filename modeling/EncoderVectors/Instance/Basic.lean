import EncoderVectors.Catalog.Entry
import EncoderVectors.Barrier

/-!
# Instances

An instance is one set of values for the operands of an entry. Both dialects are written from it, so
they cannot disagree on a value. The values of an instance fit the layout of its entry: that is part
of the instance.
-/

set_option autoImplicit false

namespace EncoderVectors

/-- The values of an instance. -/
inductive Filling where
  /-- Operand values in layout order. -/
  | operands (values : List Operand)
  /-- The two sets of a fence. -/
  | barriers (predecessor successor : Barrier)
  deriving DecidableEq, Repr

namespace Layout

/-- The values are of the kinds that the layout asks for, in its order. -/
def Accepts : Layout → Filling → Prop
  | .fence, .barriers _ _ => True
  | .fence, .operands _ => False
  | .slots kinds, .operands values => values.map Operand.slot = kinds
  | .atomic kind _, .operands values =>
      values.map Operand.slot = List.replicate kind.registers .general
  | .slots _, .barriers _ _ | .atomic _ _, .barriers _ _ => False

instance decidableAccepts (l : Layout) (f : Filling) : Decidable (l.Accepts f) := by
  cases l <;> cases f <;> simp only [Accepts] <;> infer_instance

end Layout

/-- One set of values for an entry. -/
structure Instance where
  /-- The entry. -/
  entry : Entry
  /-- The values. -/
  filling : Filling
  /-- The values fit the layout of the entry. -/
  fits : entry.shape.layout.Accepts filling
  deriving DecidableEq, Repr

namespace Instance

/-- Why values do not make an instance. -/
inductive Fault where
  /-- A fence was given operands. -/
  | operandsForFence
  /-- Something other than a fence was given barriers. -/
  | barriersForOperands
  /-- The operands are not of the kinds that the layout asks for. -/
  | kinds (expected actual : List Slot)
  deriving DecidableEq, Repr

/-- The wording of the reason. -/
def Fault.message : Fault → String
  | .operandsForFence => "fence instances are built from barriers"
  | .barriersForOperands => "barriers given for a non-fence entry"
  | .kinds expected actual =>
      "expected operands " ++ Slot.labels expected ++ ", got " ++ Slot.labels actual

/-- The instance of an entry with those values, or why there is none. -/
def ofFilling (e : Entry) (f : Filling) : Except Fault Instance :=
  if h : e.shape.layout.Accepts f then .ok ⟨e, f, h⟩
  else
    match e.shape.layout, f with
    | .fence, _ => .error .operandsForFence
    | _, .barriers _ _ => .error .barriersForOperands
    | layout, .operands values => .error (.kinds layout.operandSlots (values.map Operand.slot))

/-- The operand values; a fence has none. -/
def operands (i : Instance) : List Operand :=
  match i.filling with
  | .operands values => values
  | .barriers _ _ => []

/-- The two sets of a fence. -/
def barriers? (i : Instance) : Option (Barrier × Barrier) :=
  match i.filling with
  | .operands _ => none
  | .barriers predecessor successor => some (predecessor, successor)

end Instance

end EncoderVectors
