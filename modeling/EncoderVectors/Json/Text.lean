/-!
# Strings in JSON text

Reading the inside of a string, the opening quote being behind. A string that is kept must not hold
half of a surrogate pair; in a string that is passed over, only the form of the escapes matters.
Control characters are refused in both.
-/

set_option autoImplicit false

namespace EncoderVectors.Json

/-- The value of a hexadecimal digit. -/
def hexValue? (c : Char) : Option Nat :=
  if '0' ≤ c ∧ c ≤ '9' then some (c.toNat - 48)
  else if 'a' ≤ c ∧ c ≤ 'f' then some (c.toNat - 87)
  else if 'A' ≤ c ∧ c ≤ 'F' then some (c.toNat - 55)
  else none

/-- The code unit of four hexadecimal digits. -/
def unit? (a b c d : Char) : Option Nat := do
  let a ← hexValue? a
  let b ← hexValue? b
  let c ← hexValue? c
  let d ← hexValue? d
  return ((a * 16 + b) * 16 + c) * 16 + d

/-- The unit is the first half of a surrogate pair. -/
def isHighHalf (unit : Nat) : Bool := 0xD800 ≤ unit && unit ≤ 0xDBFF

/-- The unit is the second half of a surrogate pair. -/
def isLowHalf (unit : Nat) : Bool := 0xDC00 ≤ unit && unit ≤ 0xDFFF

/-- The character of a surrogate pair. -/
def pairChar (high low : Nat) : Char :=
  Char.ofNat ((high - 0xD800) * 0x400 + (low - 0xDC00) + 0x10000)

/-- The character that a one-letter escape stands for. -/
def escapeChar? : Char → Option Char
  | '"' => some '"'
  | '\\' => some '\\'
  | '/' => some '/'
  | 'b' => some '\x08'
  | 'f' => some '\x0c'
  | 'n' => some '\n'
  | 'r' => some '\r'
  | 't' => some '\t'
  | _ => none

/-- Reads a string that is kept, up to and with its closing quote. -/
def scanString : List Char → Option (List Char × List Char)
  | [] => none
  | '"' :: rest => some ([], rest)
  | '\\' :: 'u' :: a :: b :: c :: d :: rest =>
      match unit? a b c d with
      | none => none
      | some unit =>
          if isLowHalf unit then none
          else if isHighHalf unit then
            match rest with
            | '\\' :: 'u' :: e :: f :: g :: h :: rest₂ =>
                match unit? e f g h with
                | none => none
                | some low =>
                    if isLowHalf low then
                      (scanString rest₂).map fun (cs, after) => (pairChar unit low :: cs, after)
                    else none
            | _ => none
          else (scanString rest).map fun (cs, after) => (Char.ofNat unit :: cs, after)
  | '\\' :: e :: rest =>
      match escapeChar? e with
      | some c => (scanString rest).map fun (cs, after) => (c :: cs, after)
      | none => none
  | c :: rest =>
      if c.toNat < 0x20 then none
      else (scanString rest).map fun (cs, after) => (c :: cs, after)

/-- Passes over a string, up to and with its closing quote. -/
def skipString : List Char → Option (List Char)
  | [] => none
  | '"' :: rest => some rest
  | '\\' :: 'u' :: a :: b :: c :: d :: rest =>
      if (unit? a b c d).isSome then skipString rest else none
  | '\\' :: e :: rest => if (escapeChar? e).isSome then skipString rest else none
  | c :: rest => if c.toNat < 0x20 then none else skipString rest

end EncoderVectors.Json
