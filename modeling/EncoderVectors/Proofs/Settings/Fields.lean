import EncoderVectors.Proofs.Json.Records
import EncoderVectors.Proofs.Json.Tree
import EncoderVectors.Settings.Reader

/-!
# The settings one by one

Every setting by itself: its key, what it can hold, which values of a text stand for what, its default,
and its place among the settings. The settings of each part make a schema, and the readers of
`EncoderVectors.Settings.Reader` are those of the schemas.

A document sets some of the settings and may hold anything else beside them. It is read, and every
setting is what the document says, or its default (`Settings.exists_ofJson`).
-/

set_option autoImplicit false

namespace EncoderVectors

open Json (Reader Value Schema Reads)

/-! ## Values of a kind -/

namespace Json.Value

/-- An unsigned integer of 64 bits. -/
def word64? (v : Value) : Option UInt64 :=
  v.natural?.map UInt64.ofNat

/-- A path: any string. -/
def path? (v : Value) : Option Path :=
  v.text?.map Path.mk

/-- An extraction method: its name, or an object with its name as the only key and null as the value. -/
def extraction? : Value → Option Extraction
  | .text content => content.bind Extraction.ofName?
  | .object [(some name, .null)] => Extraction.ofName? name
  | _ => none

end Json.Value

theorem orNull?_word64? (v : Value) :
    v.orNull? Value.word64? = (v.orNull? Value.natural?).map (Option.map UInt64.ofNat) := by
  cases v with
  | null => rfl
  | _ =>
      simp only [Value.orNull?, Value.word64?, Option.map_map]
      rfl

/-- Reads a seed, or null for none. -/
def Settings.seed : Reader (Option UInt64) := do
  let value ← Json.optional (Json.unsigned "u64")
  return value.map UInt64.ofNat

theorem Settings.reads_seed : Reads Settings.seed (Value.orNull? Value.word64?) := by
  intro v seed cs cs₁ rest decoded blank spelled ends
  rw [orNull?_word64?] at decoded
  obtain ⟨value, read, rfl⟩ := Option.map_eq_some_iff.mp decoded
  exact ((Json.reads_unsigned "u64").optional read blank spelled ends).bind (Json.takes_pure _ _)

theorem Settings.reads_plainText : Reads Settings.plainText Value.text? :=
  Json.reads_text "a string"

theorem Settings.reads_path : Reads Settings.path Value.path? :=
  (Json.reads_text "path string").map Path.mk

theorem Extraction.takes_readName {name : String} {e : Extraction} {cs cs₁ rest : List Char}
    (blank : Json.Blanks cs cs₁) (quoted : Json.Quoted (some name) cs₁ rest)
    (named : ofName? name = some e) : Json.Takes readName cs e rest := by
  obtain ⟨inside, rfl, -⟩ := quoted.exists_formed
  refine (Json.takes_look blank rfl).bind ?_
  rw [if_neg (by simp)]
  refine (Json.takes_text "a string" (Json.blanks_refl _) quoted).bind ?_
  rw [named]
  exact Json.takes_pure _ _

theorem Extraction.reads : Reads Extraction.read Value.extraction? := by
  intro v e cs cs₁ rest decoded blank spelled ends
  unfold Value.extraction? at decoded
  split at decoded
  · next content =>
      obtain ⟨name, rfl, named⟩ := Option.bind_eq_some_iff.mp decoded
      cases spelled with
      | text quoted =>
          obtain ⟨inside, rfl, -⟩ := quoted.exists_formed
          refine (Json.takes_look blank rfl).bind ?_
          rw [if_neg (by simp)]
          exact takes_readName (Json.blanks_refl _) quoted named
  · next name =>
      cases spelled with
      | @object _ cs₂ _ enclosed =>
          refine (Json.takes_look blank rfl).bind ?_
          refine (Json.takes_advance '\x7b' cs₂).bind ?_
          -- one member only: what comes after it is the closing bracket
          cases enclosed with
          | filled listed =>
              cases listed with
              | last before member closing =>
                  cases member with
                  | mk quoted colon gap value =>
                      cases value
                      refine (takes_readName before quoted decoded).bind ?_
                      refine (Json.takes_punctuation colon rfl).bind ?_
                      refine (Json.takes_look gap rfl).bind ?_
                      refine (Json.takes_literal ['n', 'u', 'l', 'l'] _).bind ?_
                      exact (Json.takes_punctuation closing rfl).bind (Json.takes_pure _ _)
              | more _ _ _ others => cases others
  · cases decoded

/-! ## The part for the run -/

/-- A setting of the run. -/
inductive RunSetting where
  /-- The seed. -/
  | seed
  /-- The directory that files are written to. -/
  | outputDir
  /-- The name that all files share. -/
  | baseName
  /-- How many instances of each entry are generated. -/
  | instances
  /-- The families that are generated. -/
  | families
  /-- The listing quotes the disassembly. -/
  | includeDisassembly
  deriving DecidableEq, Repr

namespace RunSetting

/-- The settings in order. -/
def all : List RunSetting :=
  [.seed, .outputDir, .baseName, .instances, .families, .includeDisassembly]

/-- The key of the setting. -/
def key : RunSetting → String
  | .seed => "seed"
  | .outputDir => "output_dir"
  | .baseName => "base_name"
  | .instances => "instances_per_mnemonic"
  | .families => "families"
  | .includeDisassembly => "include_disassembly"

/-- What the setting can hold. -/
def Meaning : RunSetting → Type
  | .seed => Option UInt64
  | .outputDir => Path
  | .baseName => String
  | .instances => Nat
  | .families => List String
  | .includeDisassembly => Bool

/-- What a value stands for. -/
def decode : (x : RunSetting) → Value → Option x.Meaning
  | .seed => Value.orNull? Value.word64?
  | .outputDir => Value.path?
  | .baseName => Value.text?
  | .instances => Value.natural?
  | .families => Value.list? Value.text?
  | .includeDisassembly => Value.boolean?

/-- What the setting is among those of the run. -/
def get : (x : RunSetting) → RunSettings → x.Meaning
  | .seed => RunSettings.seed
  | .outputDir => RunSettings.outputDir
  | .baseName => RunSettings.baseName
  | .instances => RunSettings.instances
  | .families => RunSettings.families
  | .includeDisassembly => RunSettings.includeDisassembly

/-- What the setting is when nothing is said about it. -/
def default : (x : RunSetting) → x.Meaning
  | .seed => none
  | .outputDir => Path.mk "."
  | .baseName => "riscv64ops"
  | .instances => (1 : Nat)
  | .families => []
  | .includeDisassembly => true

/-- The settings of the run as a record. -/
def schema : Schema RunSettings RunSetting where
  order := all
  key := key
  Meaning := Meaning
  decode := decode
  read
    | .seed => Settings.seed
    | .outputDir => Settings.path
    | .baseName => Settings.plainText
    | .instances => Json.unsigned "usize"
    | .families => Json.sequence "a sequence" Settings.plainText
    | .includeDisassembly => Json.boolean
  get := get
  put
    | .seed => fun value s => { s with seed := value }
    | .outputDir => fun value s => { s with outputDir := value }
    | .baseName => fun value s => { s with baseName := value }
    | .instances => fun value s => { s with instances := value }
    | .families => fun value s => { s with families := value }
    | .includeDisassembly => fun value s => { s with includeDisassembly := value }
  complete x := by cases x <;> decide
  distinct := by decide
  reads
    | .seed => Settings.reads_seed
    | .outputDir => Settings.reads_path
    | .baseName => Settings.reads_plainText
    | .instances => Json.reads_unsigned "usize"
    | .families => Settings.reads_plainText.sequence "a sequence"
    | .includeDisassembly => Json.reads_boolean
  get_put_self x m s := by cases x <;> rfl
  get_put_of_ne {x y} m s h := by
    cases x <;> cases y <;> first | rfl | exact absurd rfl h

theorem fields_eq : RunSettings.fields = schema.fields := by
  -- all readers are the same but that of the seed, which makes a word of the number later
  have seed : (do
      let value ← Json.optional (Json.unsigned "u64")
      return fun s => { s with seed := value.map UInt64.ofNat } :
        Reader (RunSettings → RunSettings)) = do
      let value ← Settings.seed
      return fun s => { s with seed := value } := by
    rw [Settings.seed, bind_assoc]
    rfl
  exact congrArg₂ List.cons (congrArg (Json.RecordField.mk "seed") seed) rfl

theorem get_default (x : RunSetting) : x.get {} = x.default := by
  cases x <;> rfl

end RunSetting

/-! ## The part for the tools -/

/-- A setting of the tools. -/
inductive ToolSetting where
  /-- The text that the names of all tools start with. -/
  | crossPrefix
  /-- The assembler. -/
  | assembler
  /-- The disassembler. -/
  | objdump
  /-- The object copier. -/
  | objcopy
  /-- The architecture. -/
  | march
  /-- The binary interface. -/
  | mabi
  /-- The assembler may leave offsets to the linker. -/
  | relax
  /-- How the code is taken out of the object. -/
  | extraction
  deriving DecidableEq, Repr

namespace ToolSetting

/-- The settings in order. -/
def all : List ToolSetting :=
  [.crossPrefix, .assembler, .objdump, .objcopy, .march, .mabi, .relax, .extraction]

/-- The key of the setting. -/
def key : ToolSetting → String
  | .crossPrefix => "prefix"
  | .assembler => "assembler"
  | .objdump => "objdump"
  | .objcopy => "objcopy"
  | .march => "march"
  | .mabi => "mabi"
  | .relax => "relax"
  | .extraction => "extraction"

/-- What the setting can hold. -/
def Meaning : ToolSetting → Type
  | .crossPrefix => Option String
  | .assembler | .objdump | .objcopy => Option Path
  | .march | .mabi => String
  | .relax => Bool
  | .extraction => Extraction

/-- What a value stands for. -/
def decode : (x : ToolSetting) → Value → Option x.Meaning
  | .crossPrefix => Value.orNull? Value.text?
  | .assembler | .objdump | .objcopy => Value.orNull? Value.path?
  | .march | .mabi => Value.text?
  | .relax => Value.boolean?
  | .extraction => Value.extraction?

/-- What the setting is among those of the tools. -/
def get : (x : ToolSetting) → ToolSettings → x.Meaning
  | .crossPrefix => ToolSettings.crossPrefix
  | .assembler => ToolSettings.assembler
  | .objdump => ToolSettings.objdump
  | .objcopy => ToolSettings.objcopy
  | .march => ToolSettings.march
  | .mabi => ToolSettings.mabi
  | .relax => ToolSettings.relax
  | .extraction => ToolSettings.extraction

/-- What the setting is when nothing is said about it. -/
def default : (x : ToolSetting) → x.Meaning
  | .crossPrefix | .assembler | .objdump | .objcopy => none
  | .march => "rv64g"
  | .mabi => "lp64"
  | .relax => false
  | .extraction => Extraction.elf

/-- The settings of the tools as a record. -/
def schema : Schema ToolSettings ToolSetting where
  order := all
  key := key
  Meaning := Meaning
  decode := decode
  read
    | .crossPrefix => Json.optional Settings.plainText
    | .assembler | .objdump | .objcopy => Json.optional Settings.path
    | .march | .mabi => Settings.plainText
    | .relax => Json.boolean
    | .extraction => Extraction.read
  get := get
  put
    | .crossPrefix => fun value s => { s with crossPrefix := value }
    | .assembler => fun value s => { s with assembler := value }
    | .objdump => fun value s => { s with objdump := value }
    | .objcopy => fun value s => { s with objcopy := value }
    | .march => fun value s => { s with march := value }
    | .mabi => fun value s => { s with mabi := value }
    | .relax => fun value s => { s with relax := value }
    | .extraction => fun value s => { s with extraction := value }
  complete x := by cases x <;> decide
  distinct := by decide
  reads
    | .crossPrefix => Settings.reads_plainText.optional
    | .assembler | .objdump | .objcopy => Settings.reads_path.optional
    | .march | .mabi => Settings.reads_plainText
    | .relax => Json.reads_boolean
    | .extraction => Extraction.reads
  get_put_self x m s := by cases x <;> rfl
  get_put_of_ne {x y} m s h := by
    cases x <;> cases y <;> first | rfl | exact absurd rfl h

theorem fields_eq : ToolSettings.fields = schema.fields := rfl

theorem get_default (x : ToolSetting) : x.get {} = x.default := by
  cases x <;> rfl

end ToolSetting

/-! ## The part for the calls -/

/-- A setting of the calls. -/
inductive StyleSetting where
  /-- The text in front of every call. -/
  | callPrefix
  /-- The scope of rounding modes and orderings. -/
  | enumScope
  deriving DecidableEq, Repr

namespace StyleSetting

/-- The settings in order. -/
def all : List StyleSetting :=
  [.callPrefix, .enumScope]

/-- The key of the setting. -/
def key : StyleSetting → String
  | .callPrefix => "call_prefix"
  | .enumScope => "enum_scope"

/-- What the setting is among those of the calls. -/
def get : StyleSetting → CallStyle → String
  | .callPrefix => CallStyle.callPrefix
  | .enumScope => CallStyle.enumScope

/-- What the setting is when nothing is said about it. -/
def default : StyleSetting → String
  | .callPrefix => ""
  | .enumScope => "Assembler::"

/-- The settings of the calls as a record. -/
def schema : Schema CallStyle StyleSetting where
  order := all
  key := key
  Meaning _ := String
  decode _ := Value.text?
  read _ := Settings.plainText
  get := get
  put
    | .callPrefix => fun value s => { s with callPrefix := value }
    | .enumScope => fun value s => { s with enumScope := value }
  complete x := by cases x <;> decide
  distinct := by decide
  reads _ := Settings.reads_plainText
  get_put_self x m s := by cases x <;> rfl
  get_put_of_ne {x y} m s h := by
    cases x <;> cases y <;> first | rfl | exact absurd rfl h

theorem fields_eq : CallStyle.fields = schema.fields := rfl

theorem get_default (x : StyleSetting) : x.get {} = x.default := by
  cases x <;> rfl

end StyleSetting

/-! ## All parts -/

/-- A part of the settings. -/
inductive Part where
  /-- What is generated and where it goes. -/
  | run
  /-- Which tools are used and how. -/
  | tools
  /-- How calls are spelled. -/
  | style
  deriving DecidableEq, Repr

namespace Part

/-- The parts in order. -/
def all : List Part := [.run, .tools, .style]

/-- The key of the part. -/
def key : Part → String
  | .run => "general"
  | .tools => "toolchain"
  | .style => "api"

/-- The settings of the part, one by one. -/
def Index : Part → Type
  | .run => RunSetting
  | .tools => ToolSetting
  | .style => StyleSetting

/-- The settings of the part, taken together. -/
def Record : Part → Type
  | .run => RunSettings
  | .tools => ToolSettings
  | .style => CallStyle

/-- The settings of the part as the fields of a record. -/
def schema : (p : Part) → Schema p.Record p.Index
  | .run => RunSetting.schema
  | .tools => ToolSetting.schema
  | .style => StyleSetting.schema

/-- The settings of the part when nothing is said about them. -/
def start : (p : Part) → p.Record
  | .run => ({} : RunSettings)
  | .tools => ({} : ToolSettings)
  | .style => ({} : CallStyle)

/-- What is expected where the part should stand. -/
def expected : Part → String
  | .run => "struct GeneralConfig"
  | .tools => "struct ToolchainConfig"
  | .style => "struct ApiConfig"

/-- The keys of the settings of the part. -/
def keys (p : Part) : List String :=
  p.schema.order.map p.schema.key

end Part

namespace Settings

/-- The parts as the fields of a record. -/
def schema : Schema Settings Part where
  order := Part.all
  key := Part.key
  Meaning := Part.Record
  decode p := p.schema.record? p.start
  read p := Json.fields p.expected p.schema.fields p.start
  get
    | .run => Settings.run
    | .tools => Settings.tools
    | .style => Settings.style
  put
    | .run => fun value s => { s with run := value }
    | .tools => fun value s => { s with tools := value }
    | .style => fun value s => { s with style := value }
  complete p := by cases p <;> decide
  distinct := by decide
  reads p := p.schema.reads_fields p.expected p.start
  get_put_self p m s := by cases p <;> rfl
  get_put_of_ne {p q} m s h := by
    cases p <;> cases q <;> first | rfl | exact absurd rfl h

theorem fields_eq : Settings.fields = schema.fields := by
  rw [Settings.fields, RunSetting.fields_eq, ToolSetting.fields_eq, StyleSetting.fields_eq]
  rfl

end Settings

/-- A setting: one of those of a part. -/
structure Setting where
  /-- The part. -/
  part : Part
  /-- The setting in its part. -/
  own : part.Index

namespace Setting

/-- The key of the setting in its part. -/
def key (x : Setting) : String :=
  x.part.schema.key x.own

/-- What the setting can hold. -/
def Meaning (x : Setting) : Type :=
  x.part.schema.Meaning x.own

/-- What a value stands for. -/
def decode (x : Setting) : Value → Option x.Meaning :=
  x.part.schema.decode x.own

/-- What the setting is. -/
def get (x : Setting) (s : Settings) : x.Meaning :=
  x.part.schema.get x.own (Settings.schema.get x.part s)

/-- What the setting is when nothing is said about it. -/
def default : (x : Setting) → x.Meaning
  | ⟨.run, x⟩ => RunSetting.default x
  | ⟨.tools, x⟩ => ToolSetting.default x
  | ⟨.style, x⟩ => StyleSetting.default x

/-- The value of the setting in a document. -/
def value? (x : Setting) (v : Value) : Option Value :=
  (v.member? x.part.key).bind (Value.member? x.key)

/-- What a document says about the setting. -/
def inDocument (x : Setting) (v : Value) : Option x.Meaning :=
  (x.value? v).bind x.decode

theorem get_default (x : Setting) : x.get {} = x.default := by
  obtain ⟨p, x⟩ := x
  cases p with
  | run => exact RunSetting.get_default x
  | tools => exact ToolSetting.get_default x
  | style => exact StyleSetting.get_default x

end Setting

/-! ## Documents -/

namespace Settings

/-- A document about settings: an object of parts, which are objects of settings. No part and no setting
is there twice, the value of every setting stands for something, and there may be anything else. -/
structure Document (v : Value) : Prop where
  /-- The parts. -/
  root : v.Keyed (Part.all.map Part.key)
  /-- The settings of each part. -/
  parts : ∀ p w, v.member? (Part.key p) = some w → w.Keyed p.keys
  /-- Every value is of the kind of its setting. -/
  typed : ∀ x w, Setting.value? x v = some w → (x.decode w).isSome

variable {v : Value}

/-- A part of a document is read, and each of its settings is what the document says. -/
theorem Document.exists_part (h : Document v) {p : Part} {w : Value}
    (found : v.member? p.key = some w) :
    ∃ r, p.schema.record? p.start w = some r ∧ ∀ i, p.schema.get i r =
      ((w.member? (p.schema.key i)).bind (p.schema.decode i)).getD (p.schema.get i p.start) := by
  refine p.schema.exists_record? (h.parts p w found) (fun i u there => ?_) p.start
  apply h.typed ⟨p, i⟩ u
  rw [Setting.value?, found]
  exact there

/-- The parts of a document are read, and every setting is what the document says or its default. -/
theorem Document.exists_record? (h : Document v) :
    ∃ s, schema.record? {} v = some s ∧ ∀ x, Setting.get x s = (x.inDocument v).getD x.default := by
  have typed : ∀ p w, v.member? (Part.key p) = some w → (schema.decode p w).isSome := by
    intro p w found
    obtain ⟨r, part, -⟩ := h.exists_part found
    exact Option.isSome_iff_exists.mpr ⟨r, part⟩
  obtain ⟨s, read, got⟩ := schema.exists_record? h.root typed {}
  refine ⟨s, read, fun x => ?_⟩
  have value := got x.part
  rw [Setting.inDocument, Setting.value?, ← x.get_default]
  cases found : v.member? x.part.key with
  | none =>
      rw [show v.member? (schema.key x.part) = none from found] at value
      exact congrArg (x.part.schema.get x.own) value
  | some w =>
      obtain ⟨r, part, fields⟩ := h.exists_part found
      have decoded : schema.decode x.part w = some r := part
      rw [show v.member? (schema.key x.part) = some w from found, Option.bind_some, decoded] at value
      have start : schema.get x.part {} = x.part.start := by cases x.part <;> rfl
      have whole : schema.get x.part s = r := value
      rw [Option.bind_some, Setting.get, Setting.get, whole, start]
      exact fields x.own

/-- A text of a document is read, and every setting is what the document says or its default. -/
theorem exists_ofJson {text : String} (spelled : Json.IsText v text) (h : Document v) :
    ∃ s, ofJson text = .ok s ∧ ∀ x, Setting.get x s = (x.inDocument v).getD x.default := by
  obtain ⟨s, read, got⟩ := h.exists_record?
  refine ⟨s, ?_, got⟩
  obtain ⟨cs, rest, before, value, after⟩ := spelled
  rw [ofJson, fields_eq]
  exact Json.readAll_eq_ok
    (schema.reads_fields "struct Config" {} read before value (after.ends Json.ends_nil)) after

end Settings

end EncoderVectors
