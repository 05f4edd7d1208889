import EncoderVectors.Emission.Basic
import EncoderVectors.Text.Column

/-!
# The assembly source

The text handed to the reference assembler: the body of the emission between its two labels, each
section under a comment line that names its family.
-/

set_option autoImplicit false

namespace EncoderVectors

/-- The lines of a section: a comment, then a line for each instruction. -/
def Section.sourceLines (s : Section) : List String :=
  ("# " ++ s.family.name) :: s.instructions.map fun i => "\t" ++ i.assembly

/-- The lines of the whole source. -/
def Emission.sourceLines (e : Emission) : List String :=
  [backLabel ++ ":"] ++ e.sections.flatMap Section.sourceLines ++ [forthLabel ++ ":"]

/-- The text of the whole source. -/
def Emission.source (e : Emission) : String :=
  Text.unlines e.sourceLines

end EncoderVectors
