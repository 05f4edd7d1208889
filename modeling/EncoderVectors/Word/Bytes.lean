/-!
# Words and bytes

Code is a sequence of 32-bit words, each stored with its least byte first.
-/

set_option autoImplicit false

namespace EncoderVectors.Word

/-- The word of four bytes, the least one first. -/
def ofBytes (a b c d : UInt8) : UInt32 :=
  UInt32.ofNat (a.toNat + 0x100 * b.toNat + 0x10000 * c.toNat + 0x1000000 * d.toNat)

/-- The four bytes of a word, the least one first. -/
def toBytes (w : UInt32) : List UInt8 :=
  [w.toUInt8, (w >>> 8).toUInt8, (w >>> 16).toUInt8, (w >>> 24).toUInt8]

/-- The bytes taken four at a time; what is left over at the end is dropped. -/
def group : List UInt8 → List UInt32
  | a :: b :: c :: d :: rest => ofBytes a b c d :: group rest
  | _ => []

/-- The words of a code section. A length that is no multiple of four is refused, and reported. -/
def ofCode (code : List UInt8) : Except Nat (List UInt32) :=
  if code.length % 4 = 0 then .ok (group code) else .error code.length

/-- The bytes of a sequence of words. -/
def toCode (words : List UInt32) : List UInt8 :=
  words.flatMap toBytes

end EncoderVectors.Word
