import EncoderVectors.Settings.Basic
import EncoderVectors.Toolchain.Basic

/-!
# Assembler, disassembler and object copier

A toolchain of three programs that are found once, before anything is run. A path that is set wins;
otherwise all three share a prefix, the one that is set or the first known one whose assembler can be
found. Only the assembler has to be there: the other two are missed when they are used.
-/

set_option autoImplicit false

namespace EncoderVectors

/-- The prefixes that are tried, in order. -/
def knownPrefixes : List String :=
  ["riscv64-unknown-elf-", "riscv64-linux-gnu-", "riscv64-elf-"]

/-- Three programs, and how they are used. -/
structure Binutils where
  /-- The assembler. -/
  assembler : Path
  /-- The disassembler. -/
  objdump : Option Path
  /-- The object copier. -/
  objcopy : Option Path
  /-- The architecture. -/
  march : String
  /-- The binary interface. -/
  mabi : String
  /-- The assembler may leave offsets to the linker. -/
  relax : Bool
  /-- How the code is taken out of the object. -/
  extraction : Extraction
  deriving DecidableEq, Repr

namespace Binutils

/-- The first known prefix whose assembler can be found. -/
def probe (h : Host) : Option String :=
  knownPrefixes.find? fun cross => (h.which? ⟨cross ++ "as"⟩).isSome

/-- Finds a tool: at the path that is set, or under the common prefix. -/
def locate (h : Host) (explicit : Option Path) (cross : Option String) (tool : String) :
    Except Error Path :=
  match explicit, cross with
  | some name, _ => found name
  | none, some cross => found ⟨cross ++ tool⟩
  | none, none =>
      .error (.toolMissing
        (tool ++ " (no prefix among " ++ String.intercalate ", " knownPrefixes ++ ")"))
where
  /-- The full path of a name. -/
  found (name : Path) : Except Error Path :=
    (h.which? name).elim (.error (.toolMissing name.text)) .ok

/-- Finds the programs. -/
def discover (settings : ToolSettings) : HostM Binutils := do
  let h ← get
  let cross := settings.crossPrefix <|> probe h
  match locate h settings.assembler cross "as" with
  | .error e => throw e
  | .ok assembler =>
      return {
        assembler := assembler
        objdump := (locate h settings.objdump cross "objdump").toOption
        objcopy := (locate h settings.objcopy cross "objcopy").toOption
        march := settings.march
        mabi := settings.mabi
        relax := settings.relax
        extraction := settings.extraction }

/-- The arguments of the assembler. -/
def assemblerArgs (b : Binutils) (source object : Path) : List String :=
  ["-march=" ++ b.march, "-mabi=" ++ b.mabi] ++ (if b.relax then [] else ["-mno-relax"]) ++
    [source.text, "-o", object.text]

/-- A tool that must have been found. -/
def required (tool : Option Path) (name : String) : HostM Path :=
  match tool with
  | some path => return path
  | none => throw (.toolMissing name)

/-- The code in an object, copied by a program into a file of its own. -/
def copyCode (b : Binutils) (object : Path) : HostM (List UInt8) := do
  let objcopy ← required b.objcopy "objcopy"
  let binary := object.withExtension "bin"
  let _ ← Host.runProgram objcopy
    ["-O", "binary", "-j", Elf.codeName, object.text, binary.text]
  Host.readFile binary

/-- The programs as a toolchain. -/
def toolchain (b : Binutils) : Toolchain where
  assemble source object := do
    let _ ← Host.runProgram b.assembler (b.assemblerArgs source object)
  disassemble object := do
    let objdump ← required b.objdump "objdump"
    return Text.ofUtf8Lenient (← Host.runProgram objdump ["-d", object.text])
  extract object :=
    match b.extraction with
    | .elf => Host.readCode object
    | .objcopy => b.copyCode object

end Binutils

end EncoderVectors
