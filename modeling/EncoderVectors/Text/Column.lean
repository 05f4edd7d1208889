/-!
# Columns

Padding to a width counted in characters. A text that is already wide enough is left alone.
-/

set_option autoImplicit false

namespace EncoderVectors.Text

/-- The text followed by as many spaces as bring it to `width` characters. -/
def padRight (width : Nat) (text : String) : String :=
  text ++ String.ofList (List.replicate (width - text.length) ' ')

/-- The text after as many spaces as bring it to `width` characters. -/
def padLeft (width : Nat) (text : String) : String :=
  String.ofList (List.replicate (width - text.length) ' ') ++ text

/-- The lines one after another, each ended by a line feed. -/
def unlines (lines : List String) : String :=
  String.join (lines.map (· ++ "\n"))

end EncoderVectors.Text
