import EncoderVectors.Host.Basic

/-!
# Toolchains

A run talks to the reference assembler through three actions only. Whatever offers them is a
toolchain.
-/

set_option autoImplicit false

namespace EncoderVectors

/-- What a run needs of a reference toolchain. -/
structure Toolchain where
  /-- Assembles a source into an object. -/
  assemble (source object : Path) : HostM Unit
  /-- The disassembly of an object. -/
  disassemble (object : Path) : HostM String
  /-- The code in an object. -/
  extract (object : Path) : HostM (List UInt8)

namespace Toolchain

/-- The toolchain with each call written to the log before it is made. -/
def logged (t : Toolchain) : Toolchain where
  assemble source object := do
    Host.note ["assemble", source.text, object.text]
    t.assemble source object
  disassemble object := do
    Host.note ["disassemble", object.text]
    t.disassemble object
  extract object := do
    Host.note ["extract", object.text]
    t.extract object

end Toolchain

/-- The code in an object file. -/
def Host.readCode (object : Path) : HostM (List UInt8) := do
  let image ← readFile object
  match ← liftFault .object (Elf.readCode image) with
  | some code => return code
  | none => throw (.codeMissing object)

end EncoderVectors
