import EncoderVectors.Text.Numeral
import EncoderVectors.Text.Column

/-!
# Words as text

A word is written as `0x` and eight digits. A listing holds its words as an array initializer, four
to a line.
-/

set_option autoImplicit false

namespace EncoderVectors.Word

/-- The literal of a word: `0x` and eight lowercase digits. -/
def literal (w : UInt32) : String :=
  "0x" ++ Text.paddedHexDigits 8 w.toNat

/-- The elements of a list four at a time, the last time possibly fewer. -/
def fours {α : Type} : List α → List (List α)
  | [] => []
  | a :: b :: c :: d :: rest => [a, b, c, d] :: fours rest
  | few => [few]

/-- One line of the array: its words, each with a comma. -/
def arrayLine (words : List UInt32) : String :=
  "    " ++ String.intercalate " " (words.map fun w => literal w ++ ",")

/-- The array initializer. -/
def array (words : List UInt32) : String :=
  Text.unlines
    (["  static const unsigned int insns[] =", "  \x7b"] ++ (fours words).map arrayLine ++
      ["  \x7d;"])

/-- Words in a message: eight digits each, in square brackets. -/
def labels (words : List UInt32) : String :=
  "[" ++ String.intercalate ", " (words.map fun w => Text.paddedHexDigits 8 w.toNat) ++ "]"

end EncoderVectors.Word
