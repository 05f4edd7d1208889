/-!
# The two dialects

Every instruction is written twice: as a call on the encoder under test and as a line for the
reference assembler.
-/

set_option autoImplicit false

namespace EncoderVectors

/-- The two ways an instruction is written. -/
inductive Dialect where
  /-- An encoder call, such as `ld(x1, Address(x8, -16));`. -/
  | call
  /-- An assembly line, such as `ld x1, -16(x8)`. -/
  | assembly
  deriving DecidableEq, Repr

end EncoderVectors
