import EncoderVectors.Toolchain.Basic

/-!
# Recorded toolchains

A toolchain that starts no program and answers with what was recorded. Each action may have failed
when it was recorded, and then fails in the same way.
-/

set_option autoImplicit false

namespace EncoderVectors

/-- The answers of a toolchain. -/
structure Recording where
  /-- How assembling failed. -/
  assembleError : Option Error := none
  /-- The object that was written; without one no file is touched. -/
  object : Option (List UInt8) := none
  /-- How disassembling failed. -/
  disassembleError : Option Error := none
  /-- The disassembly. -/
  disassembly : String := ""
  /-- How extracting failed. -/
  extractError : Option Error := none
  /-- The code; without it the object file is read. -/
  code : Option (List UInt8) := none
  deriving DecidableEq, Repr

/-- Fails if there is something to fail with. -/
def Recording.failWith : Option Error → HostM Unit
  | some error => throw error
  | none => return

/-- The toolchain that answers with a recording. -/
def Recording.toolchain (r : Recording) : Toolchain where
  assemble _ object := do
    failWith r.assembleError
    match r.object with
    | some content => Host.writeFile object content
    | none => return
  disassemble _ := do
    failWith r.disassembleError
    return r.disassembly
  extract object := do
    failWith r.extractError
    match r.code with
    | some code => return code
    | none => Host.readCode object

end EncoderVectors
