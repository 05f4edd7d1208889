/-!
# Numbers in object files

An object file stores numbers of a fixed width, with the least or with the greatest byte first. The
width of a number is the number of its bytes.
-/

set_option autoImplicit false

namespace EncoderVectors.Elf

/-- The bytes of an object file. -/
abbrev Image := List UInt8

/-- The order of the bytes of a number. -/
inductive ByteOrder where
  /-- The least byte comes first. -/
  | little
  /-- The greatest byte comes first. -/
  | big
  deriving DecidableEq, Repr

/-- The number whose bytes are given, the least one first. -/
def numberOf : List UInt8 → Nat
  | [] => 0
  | b :: rest => b.toNat + 256 * numberOf rest

/-- The number whose bytes are given in that order. -/
def ByteOrder.number : ByteOrder → List UInt8 → Nat
  | .little, bytes => numberOf bytes
  | .big, bytes => numberOf bytes.reverse

/-- The lowest `width` bytes of a number, the least one first. -/
def bytesOf : Nat → Nat → List UInt8
  | 0, _ => []
  | width + 1, n => UInt8.ofNat n :: bytesOf width (n / 256)

@[simp]
theorem length_bytesOf (width n : Nat) : (bytesOf width n).length = width := by
  induction width generalizing n with
  | zero => rfl
  | succ width ih => simp [bytesOf, ih]

/-- The bytes from `start` on, `size` of them, if the image has that many. -/
def slice? (image : Image) (start size : Nat) : Option (List UInt8) :=
  if start + size ≤ image.length then some ((image.drop start).take size) else none

end EncoderVectors.Elf
