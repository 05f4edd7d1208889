import EncoderVectors.CommandLine.Report
import EncoderVectors.Proofs.CommandLine.Options
import EncoderVectors.Proofs.Host.Actions
import EncoderVectors.Proofs.Json.Printing
import EncoderVectors.Proofs.Settings.Fields
import EncoderVectors.Proofs.Text.Utf8

/-!
# Flags over a file over defaults

What a command line makes of every setting: what its switch says if it is given, else what the file
with the settings says, else the default. `Setting.switch` is the switch for a setting, `Setting.told`
what the values that are given for it say, and `Setting.flag` what the flags that are read from them
say. A switch that is given says what its value says about its setting, and nothing about any other.

Main result: `CommandLine.Flags.effective_layered`.
-/

set_option autoImplicit false

namespace EncoderVectors

open CommandLine (Acceptable Choice Flags Letters Line Spelling Subcommand Switch parse valuesOf)
open Json (Value)

/-! ## Flags by setting -/

namespace RunSetting

/-- The switch for the setting. -/
def switch : RunSetting → Option Switch
  | .seed => some .seed
  | .outputDir => some .outputDir
  | .baseName => some .baseName
  | .instances => some .count
  | .families => some .family
  | .includeDisassembly => some .noDisassembly

/-- What the values that are given for its switch say about the setting: families are a list that has
something in it, and the disassembly can only be left out. -/
def told : (x : RunSetting) → List String → Option x.Meaning
  | .seed => fun given => (given.head?.bind Text.readWord64?).map some
  | .outputDir => fun given => given.head?.bind Flags.readPath?
  | .baseName => List.head?
  | .instances => fun given =>
      given.head?.bind fun value => (Text.readWord64? value).map UInt64.toNat
  | .families => fun given => if given.isEmpty then none else some given
  | .includeDisassembly => fun given => if given.isEmpty then none else some false

/-- What the flags say about the setting. -/
def flag : (x : RunSetting) → Flags → Option x.Meaning
  | .seed => fun f => f.seed.map some
  | .outputDir => Flags.outputDir
  | .baseName => Flags.baseName
  | .instances => Flags.count
  | .families => fun f => if f.families.isEmpty then none else some f.families
  | .includeDisassembly => fun f => if f.noDisassembly then some false else none

theorem get_applyToRun (x : RunSetting) (f : Flags) (s : RunSettings) :
    x.get (f.applyToRun s) = (x.flag f).getD (x.get s) := by
  obtain ⟨_, seed, families, _, _, _, _, _, _, noDisassembly, _⟩ := f
  cases x with
  | seed => cases seed <;> rfl
  | families => cases families <;> rfl
  | includeDisassembly => cases noDisassembly <;> rfl
  | _ => rfl

end RunSetting

namespace ToolSetting

/-- The switch for the setting. -/
def switch : ToolSetting → Option Switch
  | .crossPrefix => some .crossPrefix
  | .extraction => some .extraction
  | _ => none

/-- What the values that are given for its switch say about the setting. -/
def told : (x : ToolSetting) → List String → Option x.Meaning
  | .crossPrefix => fun given => given.head?.map some
  | .extraction => fun given =>
      given.head?.bind fun value => (Extraction.ofText value).toOption
  | .assembler | .objdump | .objcopy | .march | .mabi | .relax => fun _ => none

/-- What the flags say about the setting. -/
def flag : (x : ToolSetting) → Flags → Option x.Meaning
  | .crossPrefix => fun f => f.crossPrefix.map some
  | .extraction => Flags.extraction
  | .assembler | .objdump | .objcopy | .march | .mabi | .relax => fun _ => none

theorem get_applyToTools (x : ToolSetting) (f : Flags) (s : ToolSettings) :
    x.get (f.applyToTools s) = (x.flag f).getD (x.get s) := by
  obtain ⟨_, _, _, _, _, _, _, crossPrefix, _, _, _⟩ := f
  cases x with
  | crossPrefix => cases crossPrefix <;> rfl
  | _ => rfl

end ToolSetting

namespace StyleSetting

/-- The switch for the setting. -/
def switch : StyleSetting → Option Switch
  | .callPrefix => some .callPrefix
  | .enumScope => none

/-- What the values that are given for its switch say about the setting. -/
def told : StyleSetting → List String → Option String
  | .callPrefix => List.head?
  | .enumScope => fun _ => none

/-- What the flags say about the setting. -/
def flag : StyleSetting → Flags → Option String
  | .callPrefix => Flags.callPrefix
  | .enumScope => fun _ => none

theorem get_applyToStyle (x : StyleSetting) (f : Flags) (s : CallStyle) :
    x.get (f.applyToStyle s) = (x.flag f).getD (x.get s) := by
  cases x with
  | callPrefix => rfl
  | enumScope => rfl

end StyleSetting

namespace Setting

/-- The switch for the setting, if there is one. -/
def switch : Setting → Option Switch
  | ⟨.run, x⟩ => RunSetting.switch x
  | ⟨.tools, x⟩ => ToolSetting.switch x
  | ⟨.style, x⟩ => StyleSetting.switch x

/-- What the values that are given for its switch say about the setting. -/
def told : (x : Setting) → List String → Option x.Meaning
  | ⟨.run, x⟩ => RunSetting.told x
  | ⟨.tools, x⟩ => ToolSetting.told x
  | ⟨.style, x⟩ => StyleSetting.told x

/-- What the choices of a command line say about the setting. -/
def said (x : Setting) (l : List Choice) : Option x.Meaning :=
  x.switch.bind fun s => x.told (valuesOf s l)

/-- What the flags say about the setting. -/
def flag : (x : Setting) → Flags → Option x.Meaning
  | ⟨.run, x⟩ => RunSetting.flag x
  | ⟨.tools, x⟩ => ToolSetting.flag x
  | ⟨.style, x⟩ => StyleSetting.flag x

/-- A setting with the flags over it. -/
theorem get_applyTo (x : Setting) (f : Flags) (s : Settings) :
    x.get (f.applyTo s) = (x.flag f).getD (x.get s) := by
  obtain ⟨p, x⟩ := x
  cases p with
  | run => exact RunSetting.get_applyToRun x f s.run
  | tools => exact ToolSetting.get_applyToTools x f s.tools
  | style => exact StyleSetting.get_applyToStyle x f s.style

end Setting

/-! ## What is given -/

/-- The flags of choices say what the choices say. -/
theorem Setting.flag_ofChoices (x : Setting) (l : List Choice) :
    x.flag (.ofChoices l) = x.said l := by
  obtain ⟨p, x⟩ := x
  cases p with
  | run =>
      cases x with
      | includeDisassembly =>
          change (if !(valuesOf .noDisassembly l).isEmpty then some false else none) =
            if (valuesOf .noDisassembly l).isEmpty then none else some false
          cases (valuesOf .noDisassembly l).isEmpty <;> rfl
      | _ => rfl
  | tools => cases x <;> rfl
  | style => cases x <;> rfl

/-- The values that count beside one that is given now: families add up. -/
def CommandLine.Flags.earlier (f : Flags) : Switch → List String
  | .family => f.families
  | _ => []

/-- A switch says what its value says about its own setting. -/
theorem Setting.flag_eq_told {f f' : Flags} {switch : Switch} {value : String}
    (given : f.Given switch value f') {x : Setting} (own : x.switch = some switch) :
    x.flag f' = x.told (f.earlier switch ++ [value]) := by
  obtain ⟨p, x⟩ := x
  cases p with
  | run =>
      cases x with
      | seed =>
          cases own
          cases given with
          | seed _ read => exact congrArg (Option.map some) read.symm
      | outputDir =>
          cases own
          cases given with
          | outputDir _ read => exact read.symm
      | instances =>
          cases own
          cases given with
          | count _ read => exact congrArg (Option.map UInt64.toNat) read.symm
      | baseName | families | includeDisassembly =>
          cases own
          cases given
          rfl
  | tools =>
      cases x with
      | extraction =>
          cases own
          cases given with
          | extraction _ read => exact read.symm
      | crossPrefix =>
          cases own
          cases given
          rfl
      | _ => cases own
  | style =>
      cases x with
      | callPrefix =>
          cases own
          cases given
          rfl
      | enumScope => cases own

/-- A switch changes one flag, and a setting looks at the flag of its own switch only. -/
theorem Setting.flag_eq_of_given {f f' : Flags} {switch : Switch} {value : String}
    (given : f.Given switch value f') {x : Setting} (other : x.switch ≠ some switch) :
    x.flag f' = x.flag f := by
  obtain ⟨p, x⟩ := x
  cases p with
  | run => cases given <;> cases x <;> first | rfl | exact absurd rfl other
  | tools => cases given <;> cases x <;> first | rfl | exact absurd rfl other
  | style => cases given <;> cases x <;> first | rfl | exact absurd rfl other

/-! ## Loading -/

namespace Host

theorem yields_readText {h : Host} {p : Path} {text : String} (holds : h.Holds p text) :
    Yields (readText p) h text h := by
  have content : Yields (readFile p) h (Text.utf8 text) h := by
    refine yields_bind_iff.mpr ⟨h, h, rfl, ?_⟩
    exact yields_liftFault_iff.mpr ⟨holds, rfl⟩
  refine yields_bind_iff.mpr ⟨Text.utf8 text, h, content, ?_⟩
  rw [Text.ofUtf8?_utf8]
  exact yields_pure_iff.mpr ⟨rfl, rfl⟩

end Host

namespace CommandLine.Flags

theorem yields_effective_of_holds {f : Flags} {h : Host} {path : Path} {text : String} {s : Settings}
    (named : f.settings = some path) (holds : h.Holds path text)
    (read : Settings.ofJson text = .ok s) : Host.Yields f.effective h (f.applyTo s) h := by
  have load : Host.Yields (Settings.load path) h s h := by
    refine Host.yields_bind_iff.mpr ⟨text, h, Host.yields_readText holds, ?_⟩
    exact Host.yields_liftFault_iff.mpr ⟨read, rfl⟩
  rw [effective, named]
  exact Host.yields_bind_iff.mpr ⟨s, h, load, Host.yields_pure_iff.mpr ⟨rfl, rfl⟩⟩

theorem yields_effective_of_none {f : Flags} (unnamed : f.settings = none) (h : Host) :
    Host.Yields f.effective h (f.applyTo {}) h := by
  rw [effective, unnamed]
  exact Host.yields_pure_iff.mpr ⟨rfl, rfl⟩

/-- The file of choices that name one. -/
theorem settings_ofChoices {l : List Choice} (accepted : Acceptable l) {path : String}
    (named : valuesOf .settings l = [path]) : (ofChoices l).settings = some ⟨path⟩ := by
  have member : ⟨.settings, path⟩ ∈ l := mem_valuesOf_iff.mp (named ▸ List.mem_cons_self)
  have readable : (readPath? path).isSome = true := accepted.readable _ member
  change (valuesOf .settings l).head?.bind readPath? = _
  rw [named]
  change readPath? path = _
  rw [readPath?] at readable ⊢
  split at readable
  · cases readable
  · next some => rw [if_neg some]

/-- A file under flags: every setting is what its flag says, else what the document in the file says,
else its default. -/
theorem effective_of_holds {f : Flags} {h : Host} {path : Path} {v : Value} {text : String}
    (spelled : Json.IsText v text) (document : Settings.Document v)
    (named : f.settings = some path) (holds : h.Holds path text) :
    ∃ s, Host.Yields f.effective h s h ∧
      ∀ x : Setting, x.get s = ((x.flag f).or (x.inDocument v)).getD x.default := by
  obtain ⟨s, read, got⟩ := Settings.exists_ofJson spelled document
  refine ⟨f.applyTo s, yields_effective_of_holds named holds read, fun x => ?_⟩
  rw [x.get_applyTo, got x]
  -- a flag that is given hides what the document says
  cases x.flag f with
  | none => rfl
  | some m => rfl

/-- The settings of a document can be read. Any choices of switches that a subcommand takes can be
spelled. A command line that spells acceptable choices is accepted, and every setting is what the
choices say about it, else what the document in the file says that they name, else its default; if they
name no file, it is what they say, else its default. No other command line is accepted. A switch that is
given says what its value says about its own setting, and changes no other. -/
theorem effective_layered {v : Value} {text : String} (spelled : Json.IsText v text)
    (document : Settings.Document v) :
    (∃ s, Settings.ofJson text = .ok s ∧
      ∀ x : Setting, x.get s = (x.inDocument v).getD x.default) ∧
    (∀ (sub : Subcommand) (l : List Choice), (∀ c ∈ l, c.switch ∈ Switch.offered (some sub)) →
      (∀ c ∈ l, c.switch.takesValue = false → c.value = "") →
      ∃ arguments, Line sub none arguments l) ∧
    (∀ (sub : Subcommand) (arguments : List String) (l : List Choice),
      Line sub none arguments l → Acceptable l → ∃ f, parse arguments = .ok (sub, f) ∧
        (∀ (h : Host) (path : String), valuesOf .settings l = [path] → h.Holds ⟨path⟩ text →
          ∃ s, Host.Yields f.effective h s h ∧
            ∀ x : Setting, x.get s = ((x.said l).or (x.inDocument v)).getD x.default) ∧
        (∀ h : Host, valuesOf .settings l = [] →
          ∃ s, Host.Yields f.effective h s h ∧
            ∀ x : Setting, x.get s = (x.said l).getD x.default)) ∧
    (∀ (sub : Subcommand) (arguments : List String) (f : Flags),
      parse arguments = .ok (sub, f) → ∃ l, Line sub none arguments l ∧ Acceptable l) ∧
    ∀ (f f' : Flags) (switch : Switch) (value : String), f.give switch value = .ok f' →
      ∀ (x : Setting) (s : Settings),
        x.get (f'.applyTo s) =
          if x.switch = some switch then (x.told (f.earlier switch ++ [value])).getD (x.get s)
          else x.get (f.applyTo s) := by
  refine ⟨Settings.exists_ofJson spelled document, exists_line_of_offered, ?_, ?_, ?_⟩
  · intro sub arguments l line accepted
    refine ⟨.ofChoices l, parse_eq_ok_iff.mpr ⟨l, line, accepted, rfl⟩, ?_, ?_⟩
    · intro h path named holds
      obtain ⟨s, ends, got⟩ :=
        effective_of_holds spelled document (settings_ofChoices accepted named) holds
      exact ⟨s, ends, fun x => x.flag_ofChoices l ▸ got x⟩
    · intro h unnamed
      have none : (ofChoices l).settings = none := by
        simp only [ofChoices, unnamed, List.head?_nil, Option.bind_none]
      refine ⟨_, yields_effective_of_none none h, fun x => ?_⟩
      rw [x.get_applyTo, x.get_default, x.flag_ofChoices]
  · intro sub arguments f accepted
    obtain ⟨l, line, acceptable, -⟩ := parse_eq_ok_iff.mp accepted
    exact ⟨l, line, acceptable⟩
  · intro f f' switch value given x s
    have said := given_of_give given
    rw [x.get_applyTo]
    split
    · next own => rw [Setting.flag_eq_told said own]
    · next other => rw [Setting.flag_eq_of_given said other, x.get_applyTo]

/-- A document with its parts in another order and with keys that nobody knows. -/
def sampleValue : Value :=
  .object [
    (some "api", .object [(some "enum_scope", .text (some "A\n"))]),
    (some "note", .array []),
    (some "general", .object [
      (some "color", .object []),
      (some "families", .array [.text (some "ArithOp")]),
      (some "seed", .number ⟨false, ['7'], none, none⟩)])]

/-- Its text. -/
def sampleText : String :=
  Json.object 0 [
    ("api", Json.object 1 [("enum_scope", Json.quote "A\n")]),
    ("note", Json.array 1 []),
    ("general", Json.object 1 [
      ("color", Json.object 2 []),
      ("families", Json.array 2 [Json.quote "ArithOp"]),
      ("seed", Text.decimal 7)])]

theorem isText_sample : Json.IsText sampleValue sampleText := by
  apply Json.Writes.isText
  have api := Json.writes_quote "A\n"
  have families := Json.writes_array 2 (.cons (Json.writes_quote "ArithOp") .nil)
  have seed := Json.writes_decimal 7
  refine Json.writes_object 0 (.cons ⟨rfl, ?_⟩ (.cons ⟨rfl, ?_⟩ (.cons ⟨rfl, ?_⟩ .nil)))
  · exact Json.writes_object 1 (.cons ⟨rfl, api⟩ .nil)
  · exact Json.writes_array 1 .nil
  · exact Json.writes_object 1 (.cons ⟨rfl, Json.writes_object 2 .nil⟩
      (.cons ⟨rfl, families⟩ (.cons ⟨rfl, seed⟩ .nil)))

theorem document_sample : Settings.Document sampleValue := by
  refine ⟨⟨_, rfl, by simp, by decide⟩, ?_, ?_⟩
  · intro p w found
    cases p with
    | run =>
        obtain rfl := Option.some.inj found
        exact ⟨_, rfl, by simp, by decide⟩
    | tools => cases found
    | style =>
        obtain rfl := Option.some.inj found
        exact ⟨_, rfl, by simp, by decide⟩
  · rintro ⟨p, x⟩ w found
    cases p with
    | run => cases x <;> cases found <;> rfl
    | tools => cases found
    | style =>
        cases x with
        | callPrefix => cases found
        | enumScope =>
            cases found
            rfl

/-- Choices of three switches: the file, the seed, and that the disassembly is left out. -/
def sampleChoices : List Choice :=
  [⟨.settings, "c.json"⟩, ⟨.seed, "9"⟩, ⟨.noDisassembly, ""⟩]

theorem line_sample :
    Line .run none ["run", "-c", "c.json", "--seed=9", "--no-disassembly"] sampleChoices := by
  have letter : Letters (some .run) ['c'] [] (some .settings) := .apart (by decide) rfl rfl
  have file : Spelling (some .run) "-c" [] (some .settings) := .letters letter
  have seed : Spelling (some .run) "--seed=9" [⟨.seed, "9"⟩] none :=
    .joined (s := .seed) (by decide) rfl "9"
  have bare : Spelling (some .run) "--no-disassembly" [⟨.noDisassembly, ""⟩] none :=
    .mark (s := .noDisassembly) (by decide) rfl
  exact .named (.awaited file (by decide) (.settled seed (.settled bare .done)))

theorem acceptable_sample : Acceptable sampleChoices :=
  ⟨by decide, fun s _ => by cases s <;> decide⟩

/-- Control: a command line with a file that sets three settings, one of which it sets itself, beside
one more. -/
theorem effective_layered_sample :
    let host : Host := { disk := ⟨[(["c.json"], .file (Text.utf8 sampleText))]⟩ }
    ∃ f s, parse ["run", "-c", "c.json", "--seed=9", "--no-disassembly"] = .ok (.run, f) ∧
      Host.Yields f.effective host s host ∧ s.run.seed = some 9 ∧
      s.run.families = ["ArithOp"] ∧ s.run.includeDisassembly = false ∧
      s.style.enumScope = "A\n" ∧ s.tools.march = "rv64g" := by
  intro host
  obtain ⟨-, -, layered, -⟩ := effective_layered isText_sample document_sample
  have located : host.disk.locate host.directory ⟨"c.json"⟩ = .ok ["c.json"] := by decide
  have holds : host.Holds ⟨"c.json"⟩ sampleText := by
    rw [Host.Holds, Host.contentOf, Disk.read, Disk.resolve, located]
    rfl
  obtain ⟨f, accepted, file, -⟩ := layered .run _ _ line_sample acceptable_sample
  obtain ⟨s, ends, got⟩ := file host "c.json" rfl holds
  refine ⟨f, s, accepted, ends, got ⟨.run, RunSetting.seed⟩, got ⟨.run, RunSetting.families⟩,
    got ⟨.run, RunSetting.includeDisassembly⟩, got ⟨.style, StyleSetting.enumScope⟩,
    got ⟨.tools, ToolSetting.march⟩⟩

end CommandLine.Flags

end EncoderVectors
