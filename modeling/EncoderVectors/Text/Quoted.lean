import EncoderVectors.Text.Numeral
import EncoderVectors.Text.Unseen

/-!
# Quoted texts

A text in a message stands between quotes, and whatever would not be seen there is written out.
-/

set_option autoImplicit false

namespace EncoderVectors.Text

/-- A character between quotes. -/
def quotedChar (c : Char) : String :=
  if c = '\x00' then "\\0"
  else if c = '\t' then "\\t"
  else if c = '\n' then "\\n"
  else if c = '\r' then "\\r"
  else if c = '"' then "\\\""
  else if c = '\\' then "\\\\"
  else if isUnseen c then "\\u\x7b" ++ hexDigits c.toNat ++ "\x7d"
  else String.singleton c

/-- A text between quotes. -/
def quoted (text : String) : String :=
  "\"" ++ String.join (text.toList.map quotedChar) ++ "\""

end EncoderVectors.Text
