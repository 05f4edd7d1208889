import EncoderVectors.CommandLine.Parse
import EncoderVectors.Run
import EncoderVectors.Settings.Load
import EncoderVectors.Toolchain.Binutils

/-!
# Carrying out a command line

What a command line does to a host, and what it reports: a text, a refusal of the command line, or
the error that stopped it.
-/

set_option autoImplicit false

namespace EncoderVectors.CommandLine

/-- What comes of a command line. -/
inductive Report where
  /-- It was carried out, and this is printed. -/
  | printed (text : String)
  /-- It cannot be understood. -/
  | refused
  /-- An error stopped it. -/
  | failed (error : Error)
  deriving DecidableEq, Repr

/-- The version of the program. -/
def versionText : String := "asmtest 0.3.0\n"

/-- An explanation of the command line. -/
def usageText : String :=
  Text.unlines [
    "Usage: asmtest [-v] run [GENERATION] [-o DIR] [--name NAME] [--prefix PREFIX]",
    "                        [--extraction elf|objcopy] [--no-disassembly]",
    "       asmtest [-v] generate [GENERATION] [--api]",
    "       asmtest [-v] families",
    "",
    "GENERATION: [-c FILE] [--seed SEED] [--family FAMILY]... [-n COUNT] [--call-prefix TEXT]"]

namespace Report

/-- The exit code. -/
def exitCode : Report → Nat
  | .printed _ => 0
  | .failed _ => 1
  | .refused => 2

/-- What is printed. -/
def output : Report → String
  | .printed text => text
  | _ => ""

/-- What is printed as a complaint. -/
def complaint : Report → String
  | .printed _ => ""
  | .refused => usageText
  | .failed error => "error: " ++ error.message ++ "\n"

end Report

/-! ## Subcommands -/

/-- The settings in the file that is given, or the defaults, with the flags over them. -/
def Flags.effective (f : Flags) : HostM Settings := do
  match f.settings with
  | some path => return f.applyTo (← Settings.load path)
  | none => return f.applyTo {}

/-- What a run reports. -/
def runLines (files : Artifacts) (fixture : Fixture) : List String :=
  ["[*] " ++ Text.decimal fixture.vectors.length ++ " instructions checked (seed " ++
      Text.decimal fixture.seed.toNat ++ ")",
    "    source:  " ++ files.source.text,
    "    listing: " ++ files.listing.text,
    "    fixture: " ++ files.fixture.text]

/-- Makes a fixture with the tools that are found. -/
def performRun (f : Flags) (fresh : UInt64) : HostM String := do
  let settings ← f.effective
  let catalog ← Host.liftFault id settings.catalog
  let tools ← Binutils.discover settings.tools
  let fixture ← run settings catalog tools.toolchain fresh
  return Text.unlines (runLines settings.run.artifacts fixture)

/-- The column that printed calls are padded to. -/
def printedColumn : Nat := 50

/-- A printed call beside its assembly. The column is set apart from that of listings. -/
def printedLine (i : Instruction) : String :=
  "    " ++ Text.padRight printedColumn i.call ++ " //\t" ++ i.assembly

/-- The seed, then every call beside its assembly. -/
def callLines (e : Emission) : List String :=
  ("// seed " ++ Text.decimal e.seed.toNat) :: e.instructions.map printedLine

/-- Prints what would be assembled. -/
def performGenerate (f : Flags) (fresh : UInt64) : HostM String := do
  let settings ← f.effective
  let catalog ← Host.liftFault id settings.catalog
  let emission := settings.emit fresh catalog
  return if f.calls then Text.unlines (callLines emission) else emission.source

/-- The line about a group: how many entries it has, and how many words they are emitted as. -/
def groupLine (g : Group) : String :=
  Text.padRight 16 g.family.name ++ " " ++ Text.padLeft 3 (Text.decimal g.entries.length) ++
    " mnemonics  " ++ Text.padLeft 3 (Text.decimal (g.words 1)) ++ " words"

/-- The families of a catalog. -/
def familyLines (c : Catalog) : List String :=
  c.groups.map groupLine ++ ["total: " ++ Text.decimal (c.words 1) ++ " words per instance"]

/-- Carries out a subcommand. -/
def perform (fresh : UInt64) : Subcommand → Flags → HostM String
  | .run, f => performRun f fresh
  | .generate, f => performGenerate f fresh
  | .families, _ => return Text.unlines (familyLines .rv64g)

/-- What is reported when reading the command line stops. -/
def Stop.report : Stop → Report
  | .usage => .refused
  | .help => .printed usageText
  | .version => .printed versionText

/-- Carries out a command line; `fresh` is the seed to use if none is set. -/
def execute (fresh : UInt64) (arguments : List String) : StateM Host Report := do
  match parse arguments with
  | .error stop => return stop.report
  | .ok (sub, flags) =>
      match ← (perform fresh sub flags).run with
      | .ok text => return .printed text
      | .error error => return .failed error

end EncoderVectors.CommandLine
