import EncoderVectors.Emission.Basic
import EncoderVectors.CallStyle
import EncoderVectors.Text.Blank
import EncoderVectors.Text.Column
import EncoderVectors.Word.Text

/-!
# The listing

The text that goes into the tests of the encoder: every call beside its assembly, bound between the
two labels, then the disassembly as a comment if there is one, then the array of words the calls must
reproduce.
-/

set_option autoImplicit false

namespace EncoderVectors

/-- The column that calls are padded to. -/
def callColumn : Nat := 50

/-- A call beside its assembly. -/
def Instruction.pairedLine (i : Instruction) : String :=
  "    " ++ Text.padRight callColumn i.call ++ " //\t" ++ i.assembly

/-- The lines of a section: a blank line, its family, and its pairs. -/
def Section.listingLines (s : Section) : List String :=
  ["", "// " ++ s.family.name] ++ s.instructions.map Instruction.pairedLine

/-- The lines that quote a disassembly: it stands in a block comment without its trailing blanks. -/
def disassemblyLines (text : String) : List String :=
  ["", "/*", Text.trimEnd text, "*/"]

/-- The lines before the array. -/
def Emission.listingLines (e : Emission) (style : CallStyle) (disassembly : Option String) :
    List String :=
  ["// BEGIN  Generated code -- do not edit",
    "// Generated by asmtest (seed " ++ Text.decimal e.seed.toNat ++ ")",
    "",
    "    Label " ++ backLabel ++ ", " ++ forthLabel ++ ";",
    "    " ++ style.bind backLabel] ++
    e.sections.flatMap Section.listingLines ++
    ["", "    " ++ style.bind forthLabel] ++
    disassembly.toList.flatMap disassemblyLines ++
    [""]

/-- The whole listing. -/
def Emission.listing (e : Emission) (style : CallStyle) (words : List UInt32)
    (disassembly : Option String) : String :=
  Text.unlines (e.listingLines style disassembly) ++ Word.array words ++
    Text.unlines ["// END  Generated code -- do not edit"]

end EncoderVectors
