import EncoderVectors.Text.Numeral

/-!
# Laying out JSON text

Objects and arrays are written one member to a line, two spaces of indentation to a level, and an
empty one on the spot. Strings escape the quote, the backslash and the control characters, and
nothing else.
-/

set_option autoImplicit false

namespace EncoderVectors.Json

/-- A character inside a string. -/
def escape (c : Char) : List Char :=
  if c = '"' then ['\\', '"']
  else if c = '\\' then ['\\', '\\']
  else if c = '\x08' then ['\\', 'b']
  else if c = '\t' then ['\\', 't']
  else if c = '\n' then ['\\', 'n']
  else if c = '\x0c' then ['\\', 'f']
  else if c = '\r' then ['\\', 'r']
  else if c.toNat < 0x20 then ['\\', 'u'] ++ (Text.paddedHexDigits 4 c.toNat).toList
  else [c]

/-- A string in quotes. -/
def quote (text : String) : String :=
  String.ofList ('"' :: text.toList.flatMap escape ++ ['"'])

/-- The indentation of a level. -/
def indent (level : Nat) : String :=
  String.ofList (List.replicate (2 * level) ' ')

/-- Members between brackets, at a level. -/
def bracketed (level : Nat) (opening closing : String) (members : List String) : String :=
  if members.isEmpty then opening ++ closing
  else
    opening ++ "\n" ++
      String.intercalate ",\n" (members.map fun m => indent (level + 1) ++ m) ++
      "\n" ++ indent level ++ closing

/-- An array of written values, at a level. -/
def array (level : Nat) (values : List String) : String :=
  bracketed level "[" "]" values

/-- An object of keys and written values, at a level. -/
def object (level : Nat) (fields : List (String × String)) : String :=
  bracketed level "\x7b" "\x7d" (fields.map fun (key, value) => quote key ++ ": " ++ value)

end EncoderVectors.Json
