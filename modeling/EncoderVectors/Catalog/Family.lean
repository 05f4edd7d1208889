import EncoderVectors.Text.Letter

/-!
# Families

A family is a section of the catalog, named after the shape its instructions share. A name is read
without regard to letter case.
-/

set_option autoImplicit false

namespace EncoderVectors

/-- The sections of the catalog. -/
inductive Family where
  /-- Three-register arithmetic and logic. -/
  | arith
  /-- Addition with an immediate. -/
  | addSubImm
  /-- Logic with an immediate. -/
  | logicalImm
  /-- Jumps that take only a label. -/
  | abs
  /-- The register-indirect jump. -/
  | twoRegAbs
  /-- Upper immediates. -/
  | loadImmed
  /-- Branches that compare one register with zero. -/
  | regAndAbs
  /-- Branches that compare two registers. -/
  | twoRegAndAbs
  /-- Comparisons with an immediate. -/
  | twoRegImmed
  /-- Shifts by a register. -/
  | shiftReg
  /-- Shifts by an immediate. -/
  | shiftImm
  /-- No operands. -/
  | op
  /-- The memory fence. -/
  | system
  /-- Atomic memory operations. -/
  | atom
  /-- One destination register. -/
  | oneReg
  /-- Two-register moves and comparisons. -/
  | twoReg
  /-- Three-register comparisons. -/
  | threeReg
  /-- Destination, control register, source. -/
  | csrxix
  /-- Destination, control register, value. -/
  | csrxii
  /-- Destination, control register. -/
  | csrxi
  /-- Control register, source. -/
  | csrix
  /-- Control register, value. -/
  | csrii
  /-- Loads and stores. -/
  | loadStore
  /-- Float arithmetic on two registers. -/
  | float2Arith
  /-- Float arithmetic on three registers. -/
  | float3Arith
  /-- Fused float arithmetic on four registers. -/
  | float4Arith
  /-- Float moves, classification and sign operations. -/
  | twoRegFloat
  /-- Sign injection, minimum, maximum and float comparisons. -/
  | threeRegFloat
  /-- Conversions between integers and floats. -/
  | floatConvert
  deriving DecidableEq, Repr

namespace Family

/-- The families in catalog order. -/
def all : List Family :=
  [.arith, .addSubImm, .logicalImm, .abs, .twoRegAbs, .loadImmed, .regAndAbs, .twoRegAndAbs,
   .twoRegImmed, .shiftReg, .shiftImm, .op, .system, .atom, .oneReg, .twoReg, .threeReg, .csrxix,
   .csrxii, .csrxi, .csrix, .csrii, .loadStore, .float2Arith, .float3Arith, .float4Arith,
   .twoRegFloat, .threeRegFloat, .floatConvert]

/-- The name of the family. -/
def name : Family → String
  | .arith => "ArithOp"
  | .addSubImm => "AddSubImmOp"
  | .logicalImm => "LogicalImmOp"
  | .abs => "AbsOp"
  | .twoRegAbs => "TwoRegAbsOp"
  | .loadImmed => "LoadImmedOp"
  | .regAndAbs => "RegAndAbsOp"
  | .twoRegAndAbs => "TwoRegAndAbsOp"
  | .twoRegImmed => "TwoRegImmedOp"
  | .shiftReg => "ShiftRegOp"
  | .shiftImm => "ShiftImmOp"
  | .op => "Op"
  | .system => "SystemOp"
  | .atom => "AtomOp"
  | .oneReg => "OneRegOp"
  | .twoReg => "TwoRegOp"
  | .threeReg => "ThreeRegOp"
  | .csrxix => "CsrxixOp"
  | .csrxii => "CsrxiiOp"
  | .csrxi => "CsrxiOp"
  | .csrix => "CsrixOp"
  | .csrii => "CsriiOp"
  | .loadStore => "LoadStoreOp"
  | .float2Arith => "Float2ArithOp"
  | .float3Arith => "Float3ArithOp"
  | .float4Arith => "Float4ArithOp"
  | .twoRegFloat => "TwoRegFloatOp"
  | .threeRegFloat => "ThreeRegFloatOp"
  | .floatConvert => "FloatConvertOp"

/-- The family of that name, in any letter case. -/
def ofName? (text : String) : Option Family :=
  all.find? fun f => Text.sameLetters f.name text

end Family

end EncoderVectors
