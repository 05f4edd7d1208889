/-!
# Rounding modes

A floating-point instruction may carry one fixed rounding mode. The encoder call always names it.
The assembly line leaves out a mode that makes no difference to the result; the assembler then takes
the nearest-even mode, so that is the only mode that can be left out.
-/

set_option autoImplicit false

namespace EncoderVectors

/-- The static rounding modes. -/
inductive RoundingMode where
  /-- To the nearest value, ties to even. -/
  | rne
  /-- Towards zero. -/
  | rtz
  /-- Downwards. -/
  | rdn
  /-- Upwards. -/
  | rup
  /-- To the nearest value, ties away from zero. -/
  | rmm
  deriving DecidableEq, Repr

namespace RoundingMode

/-- The modes in the order of their encodings. -/
def all : List RoundingMode := [.rne, .rtz, .rdn, .rup, .rmm]

/-- The value of the three-bit mode field. -/
def code : RoundingMode → Nat
  | .rne => 0
  | .rtz => 1
  | .rdn => 2
  | .rup => 3
  | .rmm => 4

/-- The name of the mode, the same in both dialects. -/
def name : RoundingMode → String
  | .rne => "rne"
  | .rtz => "rtz"
  | .rdn => "rdn"
  | .rup => "rup"
  | .rmm => "rmm"

end RoundingMode

/-- How an instruction rounds, and whether its assembly line says so. -/
inductive Rounding where
  /-- The mode is written in both dialects. -/
  | spelled (mode : RoundingMode)
  /-- Nearest-even, written in the call only. -/
  | implied
  deriving DecidableEq, Repr

namespace Rounding

/-- The mode in the instruction word. -/
def mode : Rounding → RoundingMode
  | .spelled m => m
  | .implied => .rne

/-- The assembly line carries the mode. -/
def isSpelled : Rounding → Bool
  | .spelled _ => true
  | .implied => false

end Rounding

end EncoderVectors
