/-!
# Fence barriers

A fence orders one set of accesses before another. A set is any of device input, device output,
memory reads and memory writes; the generator draws from seven of the sixteen sets.
-/

set_option autoImplicit false

namespace EncoderVectors

/-- A predecessor or successor set of a fence. -/
structure Barrier where
  /-- Device input is in the set. -/
  input : Bool
  /-- Device output is in the set. -/
  output : Bool
  /-- Memory reads are in the set. -/
  read : Bool
  /-- Memory writes are in the set. -/
  write : Bool
  deriving DecidableEq, Repr

namespace Barrier

/-- The sets that are drawn, in drawing order. -/
def choices : List Barrier :=
  [⟨true, false, false, false⟩,
   ⟨false, true, false, false⟩,
   ⟨false, false, true, false⟩,
   ⟨false, false, false, true⟩,
   ⟨true, false, true, false⟩,
   ⟨false, true, false, true⟩,
   ⟨true, true, true, true⟩]

/-- The set drawn under a number. -/
def nth (i : Fin 7) : Barrier :=
  choices.get i

/-- The four-bit field of the set: input is the highest bit, write the lowest. -/
def bits (b : Barrier) : Nat :=
  8 * b.input.toNat + 4 * b.output.toNat + 2 * b.read.toNat + b.write.toNat

/-- The assembler's spelling: the letters of the members, such as `iorw`. -/
def name (b : Barrier) : String :=
  (if b.input then "i" else "") ++ (if b.output then "o" else "") ++
    (if b.read then "r" else "") ++ (if b.write then "w" else "")

end Barrier

end EncoderVectors
