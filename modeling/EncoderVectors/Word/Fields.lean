/-!
# Fields of a word

The fields of an instruction word that matter when the forms of a control transfer are compared: two
forms of one transfer may differ in their target field and nowhere else.
-/

set_option autoImplicit false

namespace EncoderVectors.Word

/-- Bits 0 to 6: the opcode. -/
def opcode (w : UInt32) : UInt32 := w &&& 0x7F

/-- Bits 7 to 11: the destination register. -/
def rd (w : UInt32) : UInt32 := (w >>> 7) &&& 0x1F

/-- Bits 12 to 14: the function selector. -/
def funct3 (w : UInt32) : UInt32 := (w >>> 12) &&& 0x7

/-- Bits 15 to 19: the first source register. -/
def rs1 (w : UInt32) : UInt32 := (w >>> 15) &&& 0x1F

/-- Bits 20 to 24: the second source register. -/
def rs2 (w : UInt32) : UInt32 := (w >>> 20) &&& 0x1F

/-- The opcode of the conditional branches. -/
def branchOpcode : UInt32 := 0x63

/-- The opcode of the jump and link. -/
def jumpOpcode : UInt32 := 0x6F

/-- What is left of a word when its target field is taken out. -/
inductive TargetFree where
  /-- A conditional branch: the comparison and the two registers compared. -/
  | branch (funct3 rs1 rs2 : UInt32)
  /-- A jump: the link register. -/
  | jump (rd : UInt32)
  /-- Anything else has no target field. -/
  | other (word : UInt32)
  deriving DecidableEq, Repr

/-- The word without its target field. -/
def targetFree (w : UInt32) : TargetFree :=
  if opcode w = branchOpcode then .branch (funct3 w) (rs1 w) (rs2 w)
  else if opcode w = jumpOpcode then .jump (rd w)
  else .other w

/-- The encoding of a conditional branch; `offset` is taken modulo `2 ^ 32`. -/
def encodeBranch (funct3 rs1 rs2 offset : UInt32) : UInt32 :=
  (((offset >>> 12) &&& 0x1) <<< 31) ||| (((offset >>> 5) &&& 0x3F) <<< 25) |||
    ((rs2 &&& 0x1F) <<< 20) ||| ((rs1 &&& 0x1F) <<< 15) ||| ((funct3 &&& 0x7) <<< 12) |||
    (((offset >>> 1) &&& 0xF) <<< 8) ||| (((offset >>> 11) &&& 0x1) <<< 7) ||| branchOpcode

/-- The encoding of a jump and link; `offset` is taken modulo `2 ^ 32`. -/
def encodeJump (rd offset : UInt32) : UInt32 :=
  (((offset >>> 20) &&& 0x1) <<< 31) ||| (((offset >>> 1) &&& 0x3FF) <<< 21) |||
    (((offset >>> 11) &&& 0x1) <<< 20) ||| (((offset >>> 12) &&& 0xFF) <<< 12) |||
    ((rd &&& 0x1F) <<< 7) ||| jumpOpcode

end EncoderVectors.Word
