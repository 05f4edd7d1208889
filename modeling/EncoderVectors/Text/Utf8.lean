/-!
# UTF-8

Texts as bytes and back. Reading bytes yields a character, or a gap, for each part of the input: a
gap stands for the longest stretch of bytes that starts a character without finishing it, or for one
byte that starts none. Strict reading refuses gaps; lenient reading puts the replacement character
in their place.
-/

set_option autoImplicit false

namespace EncoderVectors.Text

/-- The bytes of a text. -/
def utf8 (text : String) : List UInt8 :=
  text.toList.flatMap String.utf8EncodeChar

/-- A character of which some bytes have been read. -/
structure Unfinished where
  /-- The payload read so far. -/
  value : Nat
  /-- How many bytes are still to come after the next one. -/
  later : Nat
  /-- The least byte that may come next. -/
  least : UInt8
  /-- The greatest byte that may come next. -/
  most : UInt8
  deriving DecidableEq, Repr

/-- What a byte at the start of a character begins. -/
inductive Lead where
  /-- A character of one byte. -/
  | whole (c : Char)
  /-- A character of several bytes. -/
  | opened (u : Unfinished)
  /-- No character. -/
  | stray
  deriving DecidableEq, Repr

/-- What a byte begins. Overlong forms, surrogates and code points above the last one are ruled out
by what may come second. -/
def lead (b : UInt8) : Lead :=
  if b < 0x80 then .whole (Char.ofNat b.toNat)
  else if b < 0xC2 then .stray
  else if b < 0xE0 then .opened ⟨b.toNat % 32, 0, 0x80, 0xBF⟩
  else if b = 0xE0 then .opened ⟨0, 1, 0xA0, 0xBF⟩
  else if b = 0xED then .opened ⟨13, 1, 0x80, 0x9F⟩
  else if b < 0xF0 then .opened ⟨b.toNat % 16, 1, 0x80, 0xBF⟩
  else if b = 0xF0 then .opened ⟨0, 2, 0x90, 0xBF⟩
  else if b < 0xF4 then .opened ⟨b.toNat % 8, 2, 0x80, 0xBF⟩
  else if b = 0xF4 then .opened ⟨4, 2, 0x80, 0x8F⟩
  else .stray

/-- The characters and gaps of a sequence of bytes, a character being under way or not. -/
def decodeUtf8From : Option Unfinished → List UInt8 → List (Option Char)
  | none, [] => []
  | some _, [] => [none]
  | none, b :: rest =>
      match lead b with
      | .whole c => some c :: decodeUtf8From none rest
      | .opened u => decodeUtf8From (some u) rest
      | .stray => none :: decodeUtf8From none rest
  | some u, b :: rest =>
      if u.least ≤ b && b ≤ u.most then
        let value := u.value * 64 + b.toNat % 64
        match u.later with
        | 0 => some (Char.ofNat value) :: decodeUtf8From none rest
        | later + 1 => decodeUtf8From (some ⟨value, later, 0x80, 0xBF⟩) rest
      else
        match lead b with
        | .whole c => none :: some c :: decodeUtf8From none rest
        | .opened v => none :: decodeUtf8From (some v) rest
        | .stray => none :: none :: decodeUtf8From none rest

/-- The characters and gaps of a sequence of bytes. -/
def decodeUtf8 (bytes : List UInt8) : List (Option Char) :=
  decodeUtf8From none bytes

/-- The text of a sequence of bytes without gaps. -/
def ofUtf8? (bytes : List UInt8) : Option String :=
  let parts := decodeUtf8 bytes
  if parts.all Option.isSome then some (String.ofList (parts.filterMap id)) else none

/-- The text of a sequence of bytes, with a replacement character for each gap. -/
def ofUtf8Lenient (bytes : List UInt8) : String :=
  String.ofList ((decodeUtf8 bytes).map fun part => part.getD '\uFFFD')

end EncoderVectors.Text
