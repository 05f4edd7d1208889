import EncoderVectors.CallStyle
import EncoderVectors.Host.Path
import EncoderVectors.Text.Letter

/-!
# Settings

What can be set for a run: what is generated and where it goes, which tools are used and how, and how
calls are spelled. Every setting has a default.
-/

set_option autoImplicit false

namespace EncoderVectors

/-- How the code is taken out of an assembled object. -/
inductive Extraction where
  /-- The object file is read directly. -/
  | elf
  /-- A tool copies the code section into a file of its own. -/
  | objcopy
  deriving DecidableEq, Repr

namespace Extraction

/-- The methods. -/
def all : List Extraction := [.elf, .objcopy]

/-- The name of the method. -/
def name : Extraction → String
  | .elf => "elf"
  | .objcopy => "objcopy"

/-- The method of exactly that name. -/
def ofName? (text : String) : Option Extraction :=
  all.find? fun e => e.name == text

/-- The method of that name in any letter case, or what to say about it. -/
def ofText (text : String) : Except String Extraction :=
  match ofName? (Text.lowered text) with
  | some e => .ok e
  | none =>
      .error ("unknown extraction method `" ++ Text.lowered text ++ "` (expected elf or objcopy)")

end Extraction

/-- What is generated and where it goes. -/
structure RunSettings where
  /-- The seed; a fresh one is drawn when there is none. -/
  seed : Option UInt64 := none
  /-- The directory that files are written to. -/
  outputDir : Path := ⟨"."⟩
  /-- The name that all files share, without extension. -/
  baseName : String := "riscv64ops"
  /-- How many instances of each entry are generated. -/
  instances : Nat := 1
  /-- The families that are generated; none stand for all. -/
  families : List String := []
  /-- The listing quotes the disassembly. -/
  includeDisassembly : Bool := true
  deriving DecidableEq, Repr

/-- The files of a run. -/
structure Artifacts where
  /-- The assembly source. -/
  source : Path
  /-- The assembled object. -/
  object : Path
  /-- The listing. -/
  listing : Path
  /-- The fixture. -/
  fixture : Path
  deriving DecidableEq, Repr

namespace RunSettings

/-- The file with the given extension. -/
def artifact (s : RunSettings) (extension : String) : Path :=
  s.outputDir.join ⟨s.baseName ++ "." ++ extension⟩

/-- The files of a run with these settings. -/
def artifacts (s : RunSettings) : Artifacts :=
  ⟨s.artifact "s", s.artifact "o", s.artifact "txt", s.artifact "json"⟩

end RunSettings

/-- Which tools are used and how. -/
structure ToolSettings where
  /-- The text that the names of all tools start with. -/
  crossPrefix : Option String := none
  /-- The assembler, if it is not the one under the common name. -/
  assembler : Option Path := none
  /-- The disassembler, if it is not the one under the common name. -/
  objdump : Option Path := none
  /-- The object copier, if it is not the one under the common name. -/
  objcopy : Option Path := none
  /-- The architecture. Compressed instructions are left out: every word has four bytes. -/
  march : String := "rv64g"
  /-- The binary interface. -/
  mabi : String := "lp64"
  /-- The assembler may leave offsets to the linker. -/
  relax : Bool := false
  /-- How the code is taken out of the object. -/
  extraction : Extraction := .elf
  deriving DecidableEq, Repr

/-- All settings. -/
structure Settings where
  /-- What is generated and where it goes. -/
  run : RunSettings := {}
  /-- Which tools are used and how. -/
  tools : ToolSettings := {}
  /-- How calls are spelled. -/
  style : CallStyle := {}
  deriving DecidableEq, Repr

end EncoderVectors
