import EncoderVectors.Mnemonic
import EncoderVectors.Shape

/-!
# Catalog entries

An entry binds a mnemonic to a shape. The shape of an entry has nothing wrong with it: that is part
of the entry.
-/

set_option autoImplicit false

namespace EncoderVectors

/-- A mnemonic bound to its shape. -/
structure Entry where
  /-- The name of the instruction. -/
  mnemonic : Mnemonic
  /-- The shape of the instruction. -/
  shape : Shape
  /-- Nothing is wrong with the shape. -/
  sound : shape.fault? = none
  deriving DecidableEq, Repr

namespace Entry

/-- The entry that binds the two, or what is wrong with the shape. -/
def ofShape (mnemonic : Mnemonic) (shape : Shape) : Except Shape.Fault Entry :=
  match h : shape.fault? with
  | none => .ok ⟨mnemonic, shape, h⟩
  | some fault => .error fault

/-- The name of the encoder call. -/
def callName (e : Entry) : String :=
  e.mnemonic.callName

/-- The name the assembler takes; an atomic operation ends in its ordering. -/
def assemblyName (e : Entry) : String :=
  match e.shape.ordering with
  | some ordering => e.mnemonic.assemblyName ++ "." ++ ordering.suffix
  | none => e.mnemonic.assemblyName

/-- The number of words one instance of the entry is emitted as. -/
def forms (e : Entry) : Nat :=
  e.shape.forms

end Entry

end EncoderVectors
