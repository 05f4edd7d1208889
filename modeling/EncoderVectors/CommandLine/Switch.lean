/-!
# Switches

What can be said on the command line: the subcommands, and for each the switches it takes. A switch
has a long name, and some have a letter too.
-/

set_option autoImplicit false

namespace EncoderVectors.CommandLine

/-- What the program is asked to do. -/
inductive Subcommand where
  /-- Make a fixture. -/
  | run
  /-- Print what would be assembled. -/
  | generate
  /-- List the families. -/
  | families
  deriving DecidableEq, Repr

namespace Subcommand

/-- The subcommands. -/
def all : List Subcommand := [.run, .generate, .families]

/-- The word that asks for it. -/
def name : Subcommand → String
  | .run => "run"
  | .generate => "generate"
  | .families => "families"

/-- The subcommand of that name. -/
def ofName? (word : String) : Option Subcommand :=
  all.find? fun s => s.name == word

end Subcommand

/-- A switch. -/
inductive Switch where
  /-- The file with the settings. -/
  | settings
  /-- The seed. -/
  | seed
  /-- A family to generate; may be given more than once. -/
  | family
  /-- How many instances of each entry are generated. -/
  | count
  /-- The text in front of every call. -/
  | callPrefix
  /-- The directory that files are written to. -/
  | outputDir
  /-- The name that all files share. -/
  | baseName
  /-- The text that the names of all tools start with. -/
  | crossPrefix
  /-- How the code is taken out of the object. -/
  | extraction
  /-- Leaves the disassembly out of the listing. -/
  | noDisassembly
  /-- Prints calls beside the assembly. -/
  | calls
  /-- Says more about what is going on; may be given more than once. -/
  | verbose
  /-- Explains the command line. -/
  | help
  /-- Tells the version. -/
  | version
  deriving DecidableEq, Repr

namespace Switch

/-- The long name. -/
def long : Switch → String
  | .settings => "config"
  | .seed => "seed"
  | .family => "family"
  | .count => "count"
  | .callPrefix => "call-prefix"
  | .outputDir => "out-dir"
  | .baseName => "name"
  | .crossPrefix => "prefix"
  | .extraction => "extraction"
  | .noDisassembly => "no-disassembly"
  | .calls => "api"
  | .verbose => "verbose"
  | .help => "help"
  | .version => "version"

/-- The letter. -/
def short : Switch → Option Char
  | .settings => some 'c'
  | .count => some 'n'
  | .outputDir => some 'o'
  | .verbose => some 'v'
  | .help => some 'h'
  | .version => some 'V'
  | _ => none

/-- The switch is followed by a value. -/
def takesValue : Switch → Bool
  | .noDisassembly | .calls | .verbose | .help | .version => false
  | _ => true

/-- The switches of every subcommand that generates something. -/
def generating : List Switch :=
  [.settings, .seed, .family, .count, .callPrefix]

/-- The switches that may stand after a subcommand, or before any. -/
def offered : Option Subcommand → List Switch
  | none => [.verbose, .help, .version]
  | some .run =>
      generating ++
        [.outputDir, .baseName, .crossPrefix, .extraction, .noDisassembly, .verbose, .help]
  | some .generate => generating ++ [.calls, .verbose, .help]
  | some .families => [.verbose, .help]

/-- The switch with that long name. -/
def ofLong? (sub : Option Subcommand) (name : String) : Option Switch :=
  (offered sub).find? fun s => s.long == name

/-- The switch with that letter. -/
def ofShort? (sub : Option Subcommand) (letter : Char) : Option Switch :=
  (offered sub).find? fun s => s.short == some letter

end Switch

end EncoderVectors.CommandLine
