import EncoderVectors.Catalog.Basic

/-!
# The RV64G catalog

The built-in table of instructions. The atomic operations form four groups, one for each width and
ordering; every other family forms one group.
-/

set_option autoImplicit false

namespace EncoderVectors

/-- A line of the table: a name and a shape. -/
structure Row where
  /-- The name of the instruction. -/
  name : String
  /-- Its shape. -/
  shape : Shape
  deriving DecidableEq, Repr

namespace Row

/-- The name is a mnemonic and nothing is wrong with the shape. -/
def Sound (r : Row) : Prop :=
  Mnemonic.fault? r.name = none ∧ r.shape.fault? = none

instance (r : Row) : Decidable r.Sound :=
  inferInstanceAs (Decidable (_ ∧ _))

/-- The entry of a sound line. -/
def entry (r : Row) (sound : r.Sound) : Entry where
  mnemonic := ⟨r.name, sound.1⟩
  shape := r.shape
  sound := sound.2

/-- Lines that share a shape. -/
def uniform (shape : Shape) (names : List String) : List Row :=
  names.map fun name => ⟨name, shape⟩

end Row

namespace Group

/-- The group of sound lines. -/
def ofRows (family : Family) (rows : List Row) (sound : ∀ r ∈ rows, r.Sound) : Group where
  family := family
  entries := rows.attach.map fun r => r.val.entry (sound r.val r.property)

end Group

namespace Rv64g

/-- Three general registers. -/
def threeRegisters : Shape := .ofSlots [.general, .general, .general]

/-- Two general registers and a constant. -/
def registersAnd (role : ImmediateRole) : Shape :=
  .ofSlots [.general, .general, .immediate role]

/-- A data register of the given class and an address. -/
def access (cls : RegisterClass) : Shape := .ofSlots [.register cls, .address]

/-- Float registers only, as many as given. -/
def floats (n : Nat) : Shape := .ofSlots (List.replicate n .float)

/-- A general destination and float sources, as many as given. -/
def toGeneral (n : Nat) : Shape := .ofSlots (.general :: List.replicate n .float)

/-- A float destination and a general source. -/
def fromGeneral : Shape := .ofSlots [.float, .general]

/-- The first parts of the names of the atomic operations. -/
def atomicRoots : List (String × AtomicKind) :=
  [("sc", .storeConditional), ("amoswap", .memoryOperation), ("amoadd", .memoryOperation),
   ("amoxor", .memoryOperation), ("amoand", .memoryOperation), ("amoor", .memoryOperation),
   ("amomin", .memoryOperation), ("amomax", .memoryOperation), ("amominu", .memoryOperation),
   ("amomaxu", .memoryOperation), ("lr", .loadReserved)]

/-- Each root names the kind it stands for. -/
theorem ofRoot?_of_mem_atomicRoots : ∀ r ∈ atomicRoots, AtomicKind.ofRoot? r.1 = some r.2 := by
  decide +kernel

/-- The atomic operations of one width and ordering. -/
def atomicRows (width : AtomicWidth) (ordering : AtomicOrdering) : List Row :=
  atomicRoots.map fun (root, kind) => ⟨root ++ "_" ++ width.suffix, .atomic kind ordering⟩

/-- Loads and stores, by the class of their data register. -/
def accessRows : List Row :=
  Row.uniform (access .general)
      ["ld", "lw", "lwu", "lh", "lhu", "lb", "lbu", "sd", "sw", "sh", "sb"] ++
    Row.uniform (access .float) ["fld", "flw", "fsd", "fsw"]

/-- Fused arithmetic. -/
def fusedRows : List Row :=
  [⟨"fmadd_s", (floats 4).rounded (.spelled .rup)⟩,
   ⟨"fmsub_s", (floats 4).rounded (.spelled .rtz)⟩,
   ⟨"fmadd_d", (floats 4).rounded (.spelled .rup)⟩,
   ⟨"fmsub_d", (floats 4).rounded (.spelled .rtz)⟩,
   ⟨"fnmsub_s", (floats 4).rounded (.spelled .rmm)⟩,
   ⟨"fnmadd_s", (floats 4).rounded (.spelled .rtz)⟩,
   ⟨"fnmsub_d", (floats 4).rounded (.spelled .rmm)⟩,
   ⟨"fnmadd_d", (floats 4).rounded (.spelled .rtz)⟩]

/-- Float moves, classification and sign operations. -/
def moveRows : List Row :=
  [⟨"fclass_s", toGeneral 1⟩, ⟨"fmv_s", floats 2⟩, ⟨"fclass_d", toGeneral 1⟩,
   ⟨"fmv_d", floats 2⟩, ⟨"fabs_s", floats 2⟩, ⟨"fneg_s", floats 2⟩, ⟨"fabs_d", floats 2⟩,
   ⟨"fneg_d", floats 2⟩, ⟨"fmv_x_w", toGeneral 1⟩, ⟨"fmv_x_d", toGeneral 1⟩]

/-- Sign injection, minimum, maximum and float comparisons. -/
def compareRows : List Row :=
  [⟨"fsgnj_s", floats 3⟩, ⟨"fsgnjn_s", floats 3⟩, ⟨"fsgnj_d", floats 3⟩, ⟨"fsgnjn_d", floats 3⟩,
   ⟨"fsgnjx_s", floats 3⟩, ⟨"fmin_s", floats 3⟩, ⟨"fsgnjx_d", floats 3⟩, ⟨"fmin_d", floats 3⟩,
   ⟨"fmax_s", floats 3⟩, ⟨"feq_s", toGeneral 2⟩, ⟨"fmax_d", floats 3⟩, ⟨"feq_d", toGeneral 2⟩,
   ⟨"flt_s", toGeneral 2⟩, ⟨"fle_s", toGeneral 2⟩, ⟨"flt_d", toGeneral 2⟩, ⟨"fle_d", toGeneral 2⟩]

/-- Conversions. Those that widen are exact in every mode, so their assembly leaves the mode out. -/
def convertRows : List Row :=
  [⟨"fcvt_w_s", (toGeneral 1).rounded (.spelled .rup)⟩,
   ⟨"fcvt_wu_s", (toGeneral 1).rounded (.spelled .rne)⟩,
   ⟨"fcvt_s_w", fromGeneral.rounded (.spelled .rdn)⟩,
   ⟨"fcvt_s_wu", fromGeneral.rounded (.spelled .rtz)⟩,
   ⟨"fcvt_l_s", (toGeneral 1).rounded (.spelled .rne)⟩,
   ⟨"fcvt_lu_s", (toGeneral 1).rounded (.spelled .rmm)⟩,
   ⟨"fcvt_s_l", fromGeneral.rounded (.spelled .rup)⟩,
   ⟨"fcvt_s_lu", fromGeneral.rounded (.spelled .rtz)⟩,
   ⟨"fcvt_s_d", (floats 2).rounded (.spelled .rdn)⟩,
   ⟨"fcvt_d_s", (floats 2).rounded .implied⟩,
   ⟨"fcvt_w_d", (toGeneral 1).rounded (.spelled .rdn)⟩,
   ⟨"fcvt_wu_d", (toGeneral 1).rounded (.spelled .rdn)⟩,
   ⟨"fcvt_d_w", fromGeneral.rounded .implied⟩,
   ⟨"fcvt_d_wu", fromGeneral.rounded .implied⟩,
   ⟨"fcvt_l_d", (toGeneral 1).rounded (.spelled .rdn)⟩,
   ⟨"fcvt_lu_d", (toGeneral 1).rounded (.spelled .rdn)⟩,
   ⟨"fcvt_d_l", fromGeneral.rounded (.spelled .rdn)⟩,
   ⟨"fcvt_d_lu", fromGeneral.rounded (.spelled .rdn)⟩]

/-- The whole table, group by group. -/
def table : List (Family × List Row) :=
  [(.arith, Row.uniform threeRegisters
      ["add", "sub", "addw", "subw", "or", "xor", "mul", "mulh", "mulhsu", "mulhu", "div", "divu",
       "rem", "remu", "mulw", "divw", "divuw", "remw", "remuw", "and"]),
   (.addSubImm, Row.uniform (registersAnd .imm12) ["addi", "addiw"]),
   (.logicalImm, Row.uniform (registersAnd .imm12) ["ori", "xori", "andi"]),
   (.abs, Row.uniform (Shape.bare.labelled .jump) ["j", "jal"]),
   (.twoRegAbs, Row.uniform (registersAnd .imm12) ["jalr"]),
   (.loadImmed, Row.uniform (.ofSlots [.general, .immediate .upper20]) ["lui", "auipc"]),
   (.regAndAbs, Row.uniform ((Shape.ofSlots [.general]).labelled .branch) ["bnez", "beqz"]),
   (.twoRegAndAbs, Row.uniform ((Shape.ofSlots [.general, .general]).labelled .branch)
      ["bne", "beq", "bge", "bgeu", "blt", "bltu"]),
   (.twoRegImmed, Row.uniform (registersAnd .imm12) ["slti", "sltiu"]),
   (.shiftReg, Row.uniform threeRegisters ["sll", "srl", "sra", "sraw", "sllw", "srlw"]),
   (.shiftImm, Row.uniform (registersAnd .shiftAmount)
      ["slli", "srli", "srai", "slliw", "srliw", "sraiw"]),
   (.op, Row.uniform .bare ["nop", "ecall", "ebreak", "fence_i"]),
   (.system, Row.uniform .fence ["fence"]),
   (.atom, atomicRows .word .acquire),
   (.atom, atomicRows .word .release),
   (.atom, atomicRows .double .acquire),
   (.atom, atomicRows .double .release),
   (.oneReg, Row.uniform (.ofSlots [.general])
      ["frflags", "frrm", "frcsr", "rdtime", "rdcycle", "rdinstret"]),
   (.twoReg, Row.uniform (.ofSlots [.general, .general])
      ["mv", "not", "neg", "negw", "sext_w", "seqz", "snez", "sltz", "sgtz", "fscsr", "fsrm",
       "fsflags"]),
   (.threeReg, Row.uniform threeRegisters ["slt", "sltu"]),
   (.csrxix, Row.uniform (.ofSlots [.general, .immediate .csr, .general])
      ["csrrw", "csrrs", "csrrc"]),
   (.csrxii, Row.uniform (.ofSlots [.general, .immediate .csr, .immediate .csrValue])
      ["csrrwi", "csrrsi", "csrrci"]),
   (.csrxi, Row.uniform (.ofSlots [.general, .immediate .csr]) ["csrr"]),
   (.csrix, Row.uniform (.ofSlots [.immediate .csr, .general]) ["csrw", "csrs", "csrc"]),
   (.csrii, Row.uniform (.ofSlots [.immediate .csr, .immediate .csrValue])
      ["csrwi", "csrsi", "csrci"]),
   (.loadStore, accessRows),
   (.float2Arith, Row.uniform ((floats 2).rounded (.spelled .rdn)) ["fsqrt_s", "fsqrt_d"]),
   (.float3Arith, Row.uniform ((floats 3).rounded (.spelled .rup))
      ["fadd_s", "fsub_s", "fadd_d", "fsub_d", "fmul_s", "fdiv_s", "fmul_d", "fdiv_d"]),
   (.float4Arith, fusedRows),
   (.twoRegFloat, moveRows),
   (.threeRegFloat, compareRows),
   (.floatConvert, convertRows)]

/-- Every line of the table is sound. -/
theorem table_sound : ∀ g ∈ table, ∀ r ∈ g.2, r.Sound := by
  decide +kernel

end Rv64g

namespace Catalog

/-- The built-in catalog. -/
def rv64g : Catalog where
  groups := Rv64g.table.attach.map fun g =>
    Group.ofRows g.val.1 g.val.2 (Rv64g.table_sound g.val g.property)

end Catalog

end EncoderVectors
