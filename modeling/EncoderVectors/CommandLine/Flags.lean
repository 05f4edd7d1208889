import EncoderVectors.CommandLine.Switch
import EncoderVectors.Settings.Basic
import EncoderVectors.Text.Numeral

/-!
# Flags

The values that were given for switches. A value is read when it is given, and a switch that holds
one value may be given once. What is given wins over what the settings say, field by field.
-/

set_option autoImplicit false

namespace EncoderVectors.CommandLine

/-- Why reading a command line stops before its end. -/
inductive Stop where
  /-- It cannot be understood. -/
  | usage
  /-- It asks for an explanation. -/
  | help
  /-- It asks for the version. -/
  | version
  deriving DecidableEq, Repr

/-- The values that were given. -/
structure Flags where
  /-- The file with the settings. -/
  settings : Option Path := none
  /-- The seed. -/
  seed : Option UInt64 := none
  /-- The families, in order. -/
  families : List String := []
  /-- The number of instances. -/
  count : Option Nat := none
  /-- The text in front of every call. -/
  callPrefix : Option String := none
  /-- The directory that files are written to. -/
  outputDir : Option Path := none
  /-- The name that all files share. -/
  baseName : Option String := none
  /-- The text that the names of all tools start with. -/
  crossPrefix : Option String := none
  /-- How the code is taken out of the object. -/
  extraction : Option Extraction := none
  /-- The disassembly is left out of the listing. -/
  noDisassembly : Bool := false
  /-- Calls are printed beside the assembly. -/
  calls : Bool := false
  deriving DecidableEq, Repr

namespace Flags

/-- A value for a switch that has none yet; `none` stands for a value that cannot be read. -/
def once {α : Type} (given value : Option α) : Except Stop (Option α) :=
  if given.isSome || value.isNone then .error .usage else .ok value

/-- A path must not be empty. -/
def readPath? (value : String) : Option Path :=
  if value.isEmpty then none else some ⟨value⟩

/-- A mark for a switch that has none yet. -/
def mark (given : Bool) : Except Stop Bool :=
  if given then .error .usage else .ok true

/-- The flags with one more switch, and its value if it takes one. -/
def give (f : Flags) (switch : Switch) (value : String) : Except Stop Flags :=
  match switch with
  | .settings => return { f with settings := ← once f.settings (readPath? value) }
  | .seed => return { f with seed := ← once f.seed (Text.readWord64? value) }
  | .family => return { f with families := f.families ++ [value] }
  | .count =>
      return { f with count := ← once f.count ((Text.readWord64? value).map UInt64.toNat) }
  | .callPrefix => return { f with callPrefix := ← once f.callPrefix (some value) }
  | .outputDir => return { f with outputDir := ← once f.outputDir (readPath? value) }
  | .baseName => return { f with baseName := ← once f.baseName (some value) }
  | .crossPrefix => return { f with crossPrefix := ← once f.crossPrefix (some value) }
  | .extraction =>
      return { f with extraction := ← once f.extraction (Extraction.ofText value).toOption }
  | .noDisassembly => return { f with noDisassembly := ← mark f.noDisassembly }
  | .calls => return { f with calls := ← mark f.calls }
  | .verbose => return f
  | .help => throw .help
  | .version => throw .version

/-- What is set for the run, with the flags over it. Families that are given replace those that are
set; the disassembly can only be left out. -/
def applyToRun (f : Flags) (s : RunSettings) : RunSettings where
  seed := f.seed <|> s.seed
  outputDir := f.outputDir.getD s.outputDir
  baseName := f.baseName.getD s.baseName
  instances := f.count.getD s.instances
  families := if f.families.isEmpty then s.families else f.families
  includeDisassembly := !f.noDisassembly && s.includeDisassembly

/-- What is set for the tools, with the flags over it. -/
def applyToTools (f : Flags) (s : ToolSettings) : ToolSettings :=
  { s with
    crossPrefix := f.crossPrefix <|> s.crossPrefix
    extraction := f.extraction.getD s.extraction }

/-- What is set for the calls, with the flags over it. -/
def applyToStyle (f : Flags) (s : CallStyle) : CallStyle :=
  { s with callPrefix := f.callPrefix.getD s.callPrefix }

/-- The settings with the flags over them. -/
def applyTo (f : Flags) (s : Settings) : Settings :=
  ⟨f.applyToRun s.run, f.applyToTools s.tools, f.applyToStyle s.style⟩

end Flags

end EncoderVectors.CommandLine
