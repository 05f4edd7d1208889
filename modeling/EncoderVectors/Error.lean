import EncoderVectors.Catalog.Reach
import EncoderVectors.Elf.Reader
import EncoderVectors.Fixture.Basic
import EncoderVectors.Host.Disk
import EncoderVectors.Instance.Basic
import EncoderVectors.Json.Reader
import EncoderVectors.Word.Text

/-!
# Errors

Everything that can stop a run, with its wording. Each part of the library has its own faults; here
they are brought together.
-/

set_option autoImplicit false

namespace EncoderVectors

/-- What can stop a run. -/
inductive Error where
  /-- A name is no mnemonic. -/
  | mnemonic (name : String) (fault : Mnemonic.Fault)
  /-- A shape makes no sense. -/
  | shape (mnemonic : String) (fault : Shape.Fault)
  /-- A letter stands for no register slot. -/
  | mode (mnemonic : String) (letter : Char) (modes : String)
  /-- Values do not fit an entry. -/
  | filling (mnemonic : String) (fault : Instance.Fault)
  /-- A label lies out of reach. -/
  | reach (fault : Catalog.OutOfReach)
  /-- No family has that name. -/
  | family (name : String)
  /-- A tool could not be found. -/
  | toolMissing (tool : String)
  /-- A tool failed, and complained. -/
  | toolFailed (tool : String) (ending : Ending) (complaint : String)
  /-- A file could not be read or written. -/
  | disk (fault : Disk.Fault)
  /-- The object file cannot be read. -/
  | object (fault : Elf.Fault)
  /-- The object file has no code. -/
  | codeMissing (path : Path)
  /-- The code is no whole number of words. -/
  | misaligned (length : Nat)
  /-- The words do not make a fixture. -/
  | fixture (fault : Fixture.Fault)
  /-- The settings cannot be read. -/
  | settings (fault : Json.Fault)
  deriving DecidableEq, Repr

namespace Error

/-- What is wrong with a catalog entry. -/
def entryMessage (mnemonic reason : String) : String :=
  "invalid catalog entry `" ++ mnemonic ++ "`: " ++ reason

/-- The wording of a label out of reach. -/
def reachMessage (fault : Catalog.OutOfReach) : String :=
  "`" ++ fault.misfit.mnemonic ++ "` would target a label " ++
    Text.signedDecimal fault.misfit.offset ++ " bytes away, outside its reach of " ++
    Text.signedDecimal fault.misfit.reach.least ++ "..=" ++
    Text.signedDecimal fault.misfit.reach.most ++ " bytes; at most " ++
    Text.decimal fault.limit ++ " instances per mnemonic fit the selected families"

/-- The wording of words that make no fixture. -/
def fixtureMessage : Fixture.Fault → String
  | .wordCount expected actual =>
      "extracted " ++ Text.decimal actual ++ " instruction words but emitted " ++
        Text.decimal expected ++ " instructions"
  | .forms name words =>
      "forms of `" ++ name ++ "` differ outside the target field: " ++ Word.labels words

/-- The wording of an error. -/
def message : Error → String
  | .mnemonic name fault => "invalid mnemonic `" ++ name ++ "`: " ++ fault.message
  | .shape name fault => entryMessage name fault.message
  | .mode name letter modes =>
      entryMessage name
        ("unknown register mode '" ++ String.singleton letter ++ "' in \"" ++ modes ++ "\"")
  | .filling name fault => entryMessage name fault.message
  | .reach fault => reachMessage fault
  | .family name => "unknown instruction family `" ++ name ++ "`"
  | .toolMissing tool => "toolchain binary not found: " ++ tool
  | .toolFailed tool ending complaint =>
      tool ++ " failed (" ++ ending.label ++ "):\n" ++ complaint
  | .disk fault => "I/O error: " ++ fault.message
  | .object fault => "malformed object file: " ++ fault.message
  | .codeMissing path => "object " ++ path.text ++ " has no " ++ Elf.codeName ++ " section"
  | .misaligned length =>
      "code section is " ++ Text.decimal length ++ " bytes, not a multiple of 4"
  | .fixture fault => fixtureMessage fault
  | .settings fault => "JSON error: " ++ fault.message

end Error

end EncoderVectors
