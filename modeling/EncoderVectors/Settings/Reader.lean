import EncoderVectors.Json.Reader
import EncoderVectors.Settings.Basic

/-!
# Reading settings

Settings are read from JSON text: an object with a part for the run, one for the tools and one for
the calls. Whatever is missing keeps its default, and whatever is not known is passed over.
-/

set_option autoImplicit false

namespace EncoderVectors

open Json (Reader RecordField)

/-- Reads a plain string. -/
def Settings.plainText : Reader String :=
  Json.text "a string"

/-- Reads a path. -/
def Settings.path : Reader Path :=
  return ⟨← Json.text "path string"⟩

/-- Reads the name of an extraction method, which has to be a string. -/
def Extraction.readName : Reader Extraction := do
  if (← Json.look) ≠ some '"' then Json.malformed
  let name ← Settings.plainText
  match ofName? name with
  | some e => return e
  | none => throw (.variant name (all.map Extraction.name))

/-- Reads an extraction method: its name, or an object with its name as the only key and null as the
value. -/
def Extraction.read : Reader Extraction := do
  if (← Json.look) = some '\x7b' then
    Json.advance
    let e ← readName
    Json.punctuation ':'
    if (← Json.look) = some 'n' then Json.literal ['n', 'u', 'l', 'l'] else Json.refuse "unit"
    Json.punctuation '\x7d'
    return e
  else
    readName

/-- The fields of the part for the run. -/
def RunSettings.fields : List (RecordField RunSettings) :=
  [⟨"seed", do
      let value ← Json.optional (Json.unsigned "u64")
      return fun s => { s with seed := value.map UInt64.ofNat }⟩,
    ⟨"output_dir", do
      let value ← Settings.path
      return fun s => { s with outputDir := value }⟩,
    ⟨"base_name", do
      let value ← Settings.plainText
      return fun s => { s with baseName := value }⟩,
    ⟨"instances_per_mnemonic", do
      let value ← Json.unsigned "usize"
      return fun s => { s with instances := value }⟩,
    ⟨"families", do
      let value ← Json.sequence "a sequence" Settings.plainText
      return fun s => { s with families := value }⟩,
    ⟨"include_disassembly", do
      let value ← Json.boolean
      return fun s => { s with includeDisassembly := value }⟩]

/-- The fields of the part for the tools. -/
def ToolSettings.fields : List (RecordField ToolSettings) :=
  [⟨"prefix", do
      let value ← Json.optional Settings.plainText
      return fun s => { s with crossPrefix := value }⟩,
    ⟨"assembler", do
      let value ← Json.optional Settings.path
      return fun s => { s with assembler := value }⟩,
    ⟨"objdump", do
      let value ← Json.optional Settings.path
      return fun s => { s with objdump := value }⟩,
    ⟨"objcopy", do
      let value ← Json.optional Settings.path
      return fun s => { s with objcopy := value }⟩,
    ⟨"march", do
      let value ← Settings.plainText
      return fun s => { s with march := value }⟩,
    ⟨"mabi", do
      let value ← Settings.plainText
      return fun s => { s with mabi := value }⟩,
    ⟨"relax", do
      let value ← Json.boolean
      return fun s => { s with relax := value }⟩,
    ⟨"extraction", do
      let value ← Extraction.read
      return fun s => { s with extraction := value }⟩]

/-- The fields of the part for the calls. -/
def CallStyle.fields : List (RecordField CallStyle) :=
  [⟨"call_prefix", do
      let value ← Settings.plainText
      return fun s => { s with callPrefix := value }⟩,
    ⟨"enum_scope", do
      let value ← Settings.plainText
      return fun s => { s with enumScope := value }⟩]

/-- The three parts. -/
def Settings.fields : List (RecordField Settings) :=
  [⟨"general", do
      let value ← Json.fields "struct GeneralConfig" RunSettings.fields {}
      return fun s => { s with run := value }⟩,
    ⟨"toolchain", do
      let value ← Json.fields "struct ToolchainConfig" ToolSettings.fields {}
      return fun s => { s with tools := value }⟩,
    ⟨"api", do
      let value ← Json.fields "struct ApiConfig" CallStyle.fields {}
      return fun s => { s with style := value }⟩]

/-- The settings of a text. -/
def Settings.ofJson (text : String) : Except Json.Fault Settings :=
  Json.readAll (Json.fields "struct Config" Settings.fields {}) text

end EncoderVectors
