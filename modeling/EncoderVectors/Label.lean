/-!
# Labels

An instruction that transfers control is emitted once for each of three targets: its own address, a
label bound after the whole body, and a label bound before it. How far a target may be away is the
reach of the encoding.
-/

set_option autoImplicit false

namespace EncoderVectors

/-- The label bound before the first instruction. -/
def backLabel : String := "back"

/-- The label bound after the last instruction. -/
def forthLabel : String := "forth"

/-- What a control transfer aims at. -/
inductive Target where
  /-- The address of the instruction itself. -/
  | current
  /-- The label after the body. -/
  | forward
  /-- The label before the body. -/
  | backward
  deriving DecidableEq, Repr

namespace Target

/-- The targets in emission order. -/
def all : List Target := [.current, .forward, .backward]

/-- The name of the target in a fixture. -/
def name : Target → String
  | .current => "current"
  | .forward => "forward"
  | .backward => "backward"

/-- The target as an argument of an encoder call; the call that yields the current address carries
the same prefix as every call. -/
def callToken (t : Target) (callPrefix : String) : String :=
  match t with
  | .current => callPrefix ++ "pc()"
  | .forward => forthLabel
  | .backward => backLabel

/-- The target as an operand of an assembly line. -/
def assemblyToken : Target → String
  | .current => "."
  | .forward => forthLabel
  | .backward => backLabel

/-- The distance in bytes from an instruction at `pc` to its target, in a body that ends at `stop`. -/
def offset (t : Target) (stop pc : Int) : Int :=
  match t with
  | .current => 0
  | .forward => stop - pc
  | .backward => -pc

end Target

/-- The offsets in bytes that a target field can hold. -/
structure Reach where
  /-- The most negative offset. -/
  least : Int
  /-- The most positive offset. -/
  most : Int
  deriving DecidableEq, Repr

namespace Reach

/-- The offset fits the field. -/
def contains (r : Reach) (offset : Int) : Bool :=
  r.least ≤ offset && offset ≤ r.most

end Reach

/-- The two kinds of control transfer that take a label. -/
inductive Transfer where
  /-- A conditional branch: thirteen signed bits, even. -/
  | branch
  /-- A jump: twenty-one signed bits, even. -/
  | jump
  deriving DecidableEq, Repr

namespace Transfer

/-- The offsets the target field of the transfer can hold. -/
def reach : Transfer → Reach
  | .branch => ⟨-4096, 4094⟩
  | .jump => ⟨-1048576, 1048574⟩

end Transfer

end EncoderVectors
