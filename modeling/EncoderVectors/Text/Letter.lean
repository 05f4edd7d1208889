/-!
# Letter case

Names of families and of extraction methods are compared without regard to the case of the ASCII
letters; every other character stands for itself.
-/

set_option autoImplicit false

namespace EncoderVectors.Text

/-- The text with its ASCII capitals made small. -/
def lowered (text : String) : String :=
  String.ofList (text.toList.map Char.toLower)

/-- Two texts are the same up to the case of their ASCII letters. -/
def sameLetters (a b : String) : Bool :=
  a.toList.map Char.toLower == b.toList.map Char.toLower

end EncoderVectors.Text
