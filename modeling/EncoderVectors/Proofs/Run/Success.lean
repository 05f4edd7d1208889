import EncoderVectors.Run
import EncoderVectors.Toolchain.Recorded
import EncoderVectors.Proofs.Emission.Layout
import EncoderVectors.Proofs.Fixture.Pairing
import EncoderVectors.Proofs.Host.Actions
import EncoderVectors.Proofs.Word.Array
import EncoderVectors.Proofs.Word.Bytes

/-!
# Runs that end well

A run ends well exactly when each of its steps does: the labels are in reach, the directory is made,
the three files are written, the tools do what they are asked, and the code they give back has a word
for each instruction, with the words of every expansion the same outside their target fields
(`Settings.Completes`). The tools are arbitrary actions on the host. What a run that ends well leaves
behind is `Settings.Delivers`: a vector for each instruction, and files that hold what they should.

The tools get a source file that holds the source, and after them nothing touches it any more. What
they do to it themselves is up to them: at the end it holds the source exactly if they leave it as they
find it. Recorded tools do (`Recording.spares`), but a run with others can end well and lose its source
(`run_loses_source`).
-/

set_option autoImplicit false

namespace EncoderVectors

/-- How a run went: the hosts between its steps, and what the tools gave back. -/
structure Progress where
  /-- The host with the directory made. -/
  made : Host
  /-- The host with the source written, which the tools find. -/
  sourced : Host
  /-- The host that the assembler leaves. -/
  assembled : Host
  /-- The host that the disassembler leaves. -/
  disassembled : Host
  /-- The host that taking out the code leaves. -/
  extracted : Host
  /-- The host with the listing written. -/
  listed : Host
  /-- The host with the fixture written. -/
  finished : Host
  /-- The disassembly, if it was asked for. -/
  disassembly : Option String
  /-- The code in the object. -/
  code : List UInt8

/-- The fixture of an emission and code that has a word for each of its instructions. -/
def Emission.fixtureOf (e : Emission) (code : List UInt8) : Fixture :=
  ⟨e.seed, List.zipWith Fixture.vector e.instructions (Word.wordsOf code e.size)⟩

namespace Settings

/-- Every step of a run ends well. -/
structure Completes (s : Settings) (c : Catalog) (t : Toolchain) (e : Emission) (h : Host)
    (r : Progress) : Prop where
  /-- All labels are in reach. -/
  reach : c.checkReach s.run.instances = .ok ()
  /-- The directory can be made. -/
  directory : Host.Yields (Host.makeDirs s.run.outputDir) h () r.made
  /-- The source can be written. -/
  source : Host.Yields (Host.writeText s.run.artifacts.source e.source) r.made () r.sourced
  /-- The source can be assembled. -/
  assemble : Host.Yields (t.assemble s.run.artifacts.source s.run.artifacts.object) r.sourced ()
    r.assembled
  /-- The object can be disassembled, if that is asked for. -/
  disassemble :
    if s.run.includeDisassembly then
      ∃ text, r.disassembly = some text ∧
        Host.Yields (t.disassemble s.run.artifacts.object) r.assembled text r.disassembled
    else r.disassembly = none ∧ r.disassembled = r.assembled
  /-- The code can be taken out of the object. -/
  extract : Host.Yields (t.extract s.run.artifacts.object) r.disassembled r.code r.extracted
  /-- There are four bytes of code for each word that the catalog promises. -/
  length : r.code.length = 4 * c.words s.run.instances
  /-- The words of every expansion agree outside their target fields. -/
  agreement : ∀ span ∈ e.expansions,
    Fixture.Agrees (span.cut (Word.wordsOf r.code (c.words s.run.instances)))
  /-- The listing can be written. -/
  listing : Host.Yields
    (Host.writeText s.run.artifacts.listing
      (e.listing s.style (Word.wordsOf r.code (c.words s.run.instances)) r.disassembly))
    r.extracted () r.listed
  /-- The fixture can be written. -/
  fixture : Host.Yields (Host.writeText s.run.artifacts.fixture (e.fixtureOf r.code).toJson) r.listed
    () r.finished

end Settings

/-! ## Pairing code with an emission -/

/-- Code makes a fixture when it has a word for each instruction and the words of every expansion
agree. -/
theorem Fixture.ofCode_eq_ok_iff {e : Emission} {code : List UInt8} {f : Fixture} :
    Fixture.ofCode e code = .ok f ↔
      code.length = 4 * e.size ∧
        (∀ span ∈ e.expansions, Agrees (span.cut (Word.wordsOf code e.size))) ∧
          f = e.fixtureOf code := by
  have stages : Fixture.ofCode e code = .ok f ↔
      ∃ words, Word.ofCode code = .ok words ∧ pair e words = .ok f := by
    unfold Fixture.ofCode
    cases Word.ofCode code with
    | error length => simp
    | ok words =>
        cases paired : pair e words with
        | error fault => simp [paired]
        | ok f' => simp [paired]
  rw [stages]
  constructor
  · rintro ⟨words, repacked, paired⟩
    -- as many words as instructions, and four bytes to a word
    obtain ⟨length, rfl⟩ := Word.ofCode_eq_ok_iff.mp repacked
    obtain ⟨size, forms, rfl⟩ := pair_eq_ok_iff.mp paired
    rw [size] at length
    rw [Word.group_eq_wordsOf length] at forms ⊢
    exact ⟨length, forms, rfl⟩
  · rintro ⟨length, forms, rfl⟩
    refine ⟨Word.wordsOf code e.size, ?_, ?_⟩
    · rw [Word.ofCode_eq_ok_iff, Word.length_wordsOf]
      exact ⟨length, (Word.group_eq_wordsOf length).symm⟩
    · exact pair_eq_ok_iff.mpr ⟨Word.length_wordsOf _ _, forms, rfl⟩

namespace Emission

theorem words_fixtureOf (e : Emission) (code : List UInt8) :
    (e.fixtureOf code).words = Word.wordsOf code e.size :=
  Fixture.words_zipWith_vector (Word.length_wordsOf code e.size)

theorem length_vectors_fixtureOf (e : Emission) (code : List UInt8) :
    (e.fixtureOf code).vectors.length = e.size := by
  simp [fixtureOf, Word.length_wordsOf, size]

/-- The vector at a position is the instruction there with the value of the bytes there. -/
theorem exists_vector_fixtureOf {e : Emission} {i : Nat} {ins : Instruction}
    (h : e.instructions[i]? = some ins) (code : List UInt8) :
    ∃ v, (e.fixtureOf code).vectors[i]? = some v ∧ v.family = ins.family ∧ v.call = ins.call ∧
      v.assembly = ins.assembly ∧ v.target = ins.target ∧ v.word.toNat = Word.valueAt code i := by
  have inside : i < e.size := (List.getElem?_eq_some_iff.mp h).1
  refine ⟨Fixture.vector ins (UInt32.ofNat (Word.valueAt code i)), ?_, rfl, rfl, rfl, rfl, ?_⟩
  · simp [fixtureOf, Word.wordsOf, List.getElem?_zipWith, h, inside]
  · exact UInt32.toNat_ofNat_of_lt (Word.valueAt_lt code i)

end Emission

/-! ## The steps of a run -/

open Host

theorem yields_process_iff {t : Toolchain} {s : RunSettings} {h h' : Host}
    {disassembly : Option String} {code : List UInt8} :
    Yields (t.process s) h (disassembly, code) h' ↔
      ∃ assembled disassembled,
        Yields (t.assemble s.artifacts.source s.artifacts.object) h () assembled ∧
        (if s.includeDisassembly then
          ∃ text, disassembly = some text ∧
            Yields (t.disassemble s.artifacts.object) assembled text disassembled
        else disassembly = none ∧ disassembled = assembled) ∧
        Yields (t.extract s.artifacts.object) disassembled code h' := by
  unfold Toolchain.process
  dsimp only
  -- both branches go on with taking out the code, each in a copy of its own
  by_cases wanted : s.includeDisassembly = true
  · simp only [wanted, if_true]
    constructor
    · intro ends
      obtain ⟨_, assembled, first, later⟩ := yields_bind_iff.mp ends
      obtain ⟨given, disassembled, mapped, final⟩ := yields_bind_iff.mp later
      obtain ⟨text, second, rfl⟩ := yields_map_iff.mp mapped
      obtain ⟨code', left, third, last⟩ := yields_bind_iff.mp final
      obtain ⟨result, rfl⟩ := yields_pure_iff.mp last
      obtain ⟨rfl, rfl⟩ := Prod.mk.inj result
      exact ⟨assembled, disassembled, first, ⟨text, rfl, second⟩, third⟩
    · rintro ⟨assembled, disassembled, first, ⟨text, rfl, second⟩, third⟩
      refine yields_bind_iff.mpr ⟨(), assembled, first, ?_⟩
      refine yields_bind_iff.mpr ⟨some text, disassembled, ?_, ?_⟩
      · exact yields_map_iff.mpr ⟨text, second, rfl⟩
      · exact yields_bind_iff.mpr ⟨code, h', third, rfl⟩
  · simp only [wanted, Bool.false_eq_true, if_false]
    constructor
    · intro ends
      obtain ⟨_, assembled, first, later⟩ := yields_bind_iff.mp ends
      obtain ⟨given, disassembled, second, final⟩ := yields_bind_iff.mp later
      obtain ⟨rfl, rfl⟩ := yields_pure_iff.mp second
      obtain ⟨code', left, third, last⟩ := yields_bind_iff.mp final
      obtain ⟨result, rfl⟩ := yields_pure_iff.mp last
      obtain ⟨rfl, rfl⟩ := Prod.mk.inj result
      exact ⟨disassembled, disassembled, first, ⟨rfl, rfl⟩, third⟩
    · rintro ⟨assembled, disassembled, first, ⟨rfl, rfl⟩, third⟩
      refine yields_bind_iff.mpr ⟨(), disassembled, first, ?_⟩
      refine yields_bind_iff.mpr ⟨none, disassembled, rfl, ?_⟩
      exact yields_bind_iff.mpr ⟨code, h', third, rfl⟩

/-- A run ends well when its steps do, one after another. -/
theorem yields_run_iff {s : Settings} {c : Catalog} {t : Toolchain} {fresh : UInt64} {h h' : Host}
    {f : Fixture} :
    Yields (run s c t fresh) h f h' ↔
      c.checkReach s.run.instances = .ok () ∧
        ∃ made sourced extracted listed disassembly code,
          Yields (makeDirs s.run.outputDir) h () made ∧
          Yields (writeText s.run.artifacts.source (s.emit fresh c).source) made () sourced ∧
          Yields (t.process s.run) sourced (disassembly, code) extracted ∧
          Fixture.ofCode (s.emit fresh c) code = .ok f ∧
          Yields (writeText s.run.artifacts.listing
            ((s.emit fresh c).listing s.style f.words disassembly)) extracted () listed ∧
          Yields (writeText s.run.artifacts.fixture f.toJson) listed () h' := by
  unfold run
  constructor
  · intro ends
    -- a check that is lifted leaves the host as it is
    obtain ⟨_, _, checked, afterReach⟩ := yields_bind_iff.mp ends
    obtain ⟨reach, rfl⟩ := yields_liftFault_iff.mp checked
    obtain ⟨_, made, directory, afterMade⟩ := yields_bind_iff.mp afterReach
    obtain ⟨_, sourced, source, afterSource⟩ := yields_bind_iff.mp afterMade
    obtain ⟨⟨disassembly, code⟩, extracted, tools, afterTools⟩ := yields_bind_iff.mp afterSource
    obtain ⟨f', _, lifted, afterPair⟩ := yields_bind_iff.mp afterTools
    obtain ⟨paired, rfl⟩ := yields_liftFault_iff.mp lifted
    obtain ⟨_, listed, listing, afterListing⟩ := yields_bind_iff.mp afterPair
    obtain ⟨_, _, fixture, last⟩ := yields_bind_iff.mp afterListing
    obtain ⟨rfl, rfl⟩ := yields_pure_iff.mp last
    exact ⟨reach, made, sourced, _, listed, disassembly, code, directory, source, tools, paired,
      listing, fixture⟩
  · rintro ⟨reach, made, sourced, extracted, listed, disassembly, code, directory, source, tools,
      paired, listing, fixture⟩
    refine yields_bind_iff.mpr ⟨(), h, yields_liftFault_iff.mpr ⟨reach, rfl⟩, ?_⟩
    refine yields_bind_iff.mpr ⟨(), made, directory, ?_⟩
    refine yields_bind_iff.mpr ⟨(), sourced, source, ?_⟩
    refine yields_bind_iff.mpr ⟨(disassembly, code), extracted, tools, ?_⟩
    refine yields_bind_iff.mpr ⟨f, extracted, yields_liftFault_iff.mpr ⟨paired, rfl⟩, ?_⟩
    refine yields_bind_iff.mpr ⟨(), listed, listing, ?_⟩
    exact yields_bind_iff.mpr ⟨(), h', fixture, rfl⟩

theorem Settings.size_emit (s : Settings) (fresh : UInt64) (c : Catalog) :
    (s.emit fresh c).size = c.words s.run.instances :=
  Generator.size_emit _ s.style s.run.instances c

/-- A run ends well exactly when it completes every step, and yields the fixture of the code. -/
theorem yields_run_iff_completes {s : Settings} {c : Catalog} {t : Toolchain} {fresh : UInt64}
    {h h' : Host} {f : Fixture} :
    Yields (run s c t fresh) h f h' ↔
      ∃ r, s.Completes c t (s.emit fresh c) h r ∧ r.finished = h' ∧
        f = (s.emit fresh c).fixtureOf r.code := by
  rw [yields_run_iff]
  constructor
  · rintro ⟨reach, made, sourced, extracted, listed, disassembly, code, directory, source, tools,
      paired, listing, fixture⟩
    obtain ⟨assembled, disassembled, assemble, disassemble, extract⟩ := yields_process_iff.mp tools
    obtain ⟨length, agreement, rfl⟩ := Fixture.ofCode_eq_ok_iff.mp paired
    rw [Emission.words_fixtureOf, s.size_emit] at listing
    rw [s.size_emit] at length agreement
    exact ⟨⟨made, sourced, assembled, disassembled, extracted, listed, h', disassembly, code⟩,
      ⟨reach, directory, source, assemble, disassemble, extract, length, agreement, listing,
        fixture⟩, rfl, rfl⟩
  · rintro ⟨r, done, rfl, rfl⟩
    refine ⟨done.reach, r.made, r.sourced, r.extracted, r.listed, r.disassembly, r.code,
      done.directory, done.source, ?_, ?_, ?_, done.fixture⟩
    · exact yields_process_iff.mpr
        ⟨r.assembled, r.disassembled, done.assemble, done.disassemble, done.extract⟩
    · rw [Fixture.ofCode_eq_ok_iff, s.size_emit]
      exact ⟨done.length, done.agreement, rfl⟩
    · rw [Emission.words_fixtureOf, s.size_emit]
      exact done.listing

/-! ## What a run leaves behind -/

theorem readArray_listing (e : Emission) (style : CallStyle) (words : List UInt32)
    (disassembly : Option String) :
    Word.readArray (e.listing style words disassembly) = some words := by
  have last : '\x7b' ∉ (Text.unlines ["// END  Generated code -- do not edit"]).toList := by
    decide +kernel
  exact Word.readArray_append _ _ words last

/-- What a run that ends well yields and leaves behind. -/
structure Settings.Delivers (s : Settings) (c : Catalog) (e : Emission) (seed : UInt64) (r : Progress)
    (f : Fixture) (h' : Host) : Prop where
  /-- The fixture has the seed that is set. -/
  seed : f.seed = seed
  /-- There are as many vectors as the catalog promises words. -/
  size : f.vectors.length = c.words s.run.instances
  /-- The vector of number `i` is instruction `i` with the value of the bytes from `4 * i` on. -/
  vector : ∀ (i : Nat) (ins : Instruction), e.instructions[i]? = some ins →
    ∃ v, f.vectors[i]? = some v ∧ v.family = ins.family ∧ v.call = ins.call ∧
      v.assembly = ins.assembly ∧ v.target = ins.target ∧
      v.word.toNat = (r.code.getD (4 * i) 0).toNat + 0x100 * (r.code.getD (4 * i + 1) 0).toNat +
        0x10000 * (r.code.getD (4 * i + 2) 0).toNat + 0x1000000 * (r.code.getD (4 * i + 3) 0).toNat
  /-- The tools find a source file that holds the source. -/
  source : r.sourced.Holds s.run.artifacts.source e.source
  /-- The source file is left as the tools leave it. -/
  source_kept : h'.contentOf s.run.artifacts.source = r.extracted.contentOf s.run.artifacts.source
  /-- The fixture file holds the fixture. -/
  fixture : h'.Holds s.run.artifacts.fixture f.toJson
  /-- The listing file holds the listing of the words and of the disassembly. -/
  listing : h'.Holds s.run.artifacts.listing (e.listing s.style f.words r.disassembly)
  /-- The array in the listing is read as the words of the fixture, in their order. -/
  array : Word.readArray (e.listing s.style f.words r.disassembly) = some f.words

namespace Settings.Completes

variable {s : Settings} {c : Catalog} {t : Toolchain} {e : Emission} {h : Host} {r : Progress}

/-- Neither the listing nor the fixture disturbs the source. -/
theorem source_kept (done : s.Completes c t e h r) :
    r.finished.contentOf s.run.artifacts.source =
      r.extracted.contentOf s.run.artifacts.source := by
  obtain ⟨source, -, text, json⟩ := isExtension_artifacts
  have fixture := contentOf_writeText (s.run.siblings_artifact json source (by decide)) done.fixture
  have listing := contentOf_writeText (s.run.siblings_artifact text source (by decide)) done.listing
  exact fixture.trans listing

/-- The source file holds the source at the end exactly if the tools left it as they found it. -/
theorem holds_source_iff (done : s.Completes c t e h r) :
    r.finished.Holds s.run.artifacts.source e.source ↔
      r.extracted.contentOf s.run.artifacts.source =
        r.sourced.contentOf s.run.artifacts.source := by
  have found : r.sourced.Holds s.run.artifacts.source e.source := holds_of_writeText done.source
  rw [Holds] at found
  rw [Holds, done.source_kept, found]

/-- The fixture does not disturb the listing. -/
theorem holds_listing (done : s.Completes c t e h r) :
    r.finished.Holds s.run.artifacts.listing
      (e.listing s.style (Word.wordsOf r.code (c.words s.run.instances)) r.disassembly) := by
  obtain ⟨-, -, text, json⟩ := isExtension_artifacts
  have kept := contentOf_writeText (s.run.siblings_artifact json text (by decide)) done.fixture
  exact kept.trans (holds_of_writeText done.listing)

theorem delivers (done : s.Completes c t e h r) (size : e.size = c.words s.run.instances) :
    s.Delivers c e e.seed r (e.fixtureOf r.code) r.finished where
  seed := rfl
  size := by rw [Emission.length_vectors_fixtureOf, size]
  vector := by
    intro i ins found
    exact Emission.exists_vector_fixtureOf found r.code
  source := holds_of_writeText done.source
  source_kept := done.source_kept
  fixture := holds_of_writeText done.fixture
  listing := by
    rw [Emission.words_fixtureOf, size]
    exact done.holds_listing
  array := readArray_listing e s.style _ r.disassembly

end Settings.Completes

/-! ## Tools that leave the source alone -/

/-- Whatever the tools do, and however they end, they leave a file alone. -/
def Toolchain.Spares (t : Toolchain) (source object file : Path) : Prop :=
  ∀ h, (outcome (t.assemble source object) h).2.contentOf file = h.contentOf file ∧
    (outcome (t.disassemble object) h).2.contentOf file = h.contentOf file ∧
    (outcome (t.extract object) h).2.contentOf file = h.contentOf file

/-- Tools that spare the source hand it on as they find it. -/
theorem Settings.Completes.source_untouched {s : Settings} {c : Catalog} {t : Toolchain}
    {e : Emission} {h : Host} {r : Progress} (done : s.Completes c t e h r)
    (spares : t.Spares s.run.artifacts.source s.run.artifacts.object s.run.artifacts.source) :
    r.extracted.contentOf s.run.artifacts.source = r.sourced.contentOf s.run.artifacts.source := by
  have assembled := (spares r.sourced).1
  have disassembled := (spares r.assembled).2.1
  have extracted := (spares r.disassembled).2.2
  rw [done.assemble] at assembled
  rw [done.extract] at extracted
  -- without disassembly the code is taken out on the host that the assembler leaves
  have disassemble := done.disassemble
  split at disassemble
  · obtain ⟨text, -, ends⟩ := disassemble
    rw [ends] at disassembled
    exact extracted.trans (disassembled.trans assembled)
  · obtain ⟨-, same⟩ := disassemble
    rw [same] at extracted
    exact extracted.trans assembled

theorem outcome_readCode_snd (object : Path) (h : Host) : (outcome (readCode object) h).2 = h := by
  have read : outcome (readFile object) h =
      outcome (liftFault .disk (h.contentOf object)) h := rfl
  rw [readCode, outcome_bind, read]
  cases h.contentOf object with
  | error fault => rfl
  | ok image =>
      change (outcome (liftFault Error.object (Elf.readCode image) >>= _) h).2 = h
      rw [outcome_bind]
      cases Elf.readCode image with
      | error fault => rfl
      | ok code =>
          cases code with
          | none => rfl
          | some code => rfl

/-- Recorded tools write nothing but the object, so they spare what lies beside it. -/
theorem Recording.spares (rec : Recording) (source : Path) {object file : Path}
    (siblings : object.Siblings file) : rec.toolchain.Spares source object file := by
  intro h
  refine ⟨?_, ?_, ?_⟩
  · change (outcome (failWith rec.assembleError >>= _) h).2.contentOf file = _
    rw [outcome_bind]
    cases rec.assembleError with
    | some error => rfl
    | none =>
        cases rec.object with
        | none => rfl
        | some content => exact contentOf_writeFile siblings content h
  · change (outcome (failWith rec.disassembleError >>= _) h).2.contentOf file = _
    rw [outcome_bind]
    cases rec.disassembleError with
    | some error => rfl
    | none => rfl
  · change (outcome (failWith rec.extractError >>= _) h).2.contentOf file = _
    rw [outcome_bind]
    cases rec.extractError with
    | some error => rfl
    | none =>
        cases rec.code with
        | some code => rfl
        | none => exact congrArg (Host.contentOf · file) (outcome_readCode_snd object h)

/-! ## The main statement -/

/-- A run with a seed ends well exactly when every step does, and then it delivers the fixture of its
emission and of the code that the tools gave back. The source file holds the source at the end exactly
if the tools left it as they found it, which tools that spare it do. -/
theorem run_completes {s : Settings} {seed : UInt64} (seeded : s.run.seed = some seed) (c : Catalog)
    (t : Toolchain) (fresh : UInt64) (h : Host) :
    ((∃ f h', Yields (run s c t fresh) h f h') ↔
        ∃ r, s.Completes c t ((Generator.ofSeed seed).emit s.style s.run.instances c).1 h r) ∧
      (∀ f h', Yields (run s c t fresh) h f h' →
        ∃ r, s.Completes c t ((Generator.ofSeed seed).emit s.style s.run.instances c).1 h r ∧
          r.finished = h' ∧
          s.Delivers c ((Generator.ofSeed seed).emit s.style s.run.instances c).1 seed r f h' ∧
          (h'.Holds s.run.artifacts.source
              ((Generator.ofSeed seed).emit s.style s.run.instances c).1.source ↔
            r.extracted.contentOf s.run.artifacts.source =
              r.sourced.contentOf s.run.artifacts.source)) ∧
      (t.Spares s.run.artifacts.source s.run.artifacts.object s.run.artifacts.source →
        ∀ f h', Yields (run s c t fresh) h f h' →
          h'.Holds s.run.artifacts.source
            ((Generator.ofSeed seed).emit s.style s.run.instances c).1.source) := by
  have emission : s.emit fresh c =
      ((Generator.ofSeed seed).emit s.style s.run.instances c).1 := by
    rw [Settings.emit, seeded, Option.getD_some]
  rw [← emission]
  refine ⟨⟨?_, ?_⟩, ?_, ?_⟩
  · rintro ⟨f, h', ends⟩
    obtain ⟨r, done, -, -⟩ := yields_run_iff_completes.mp ends
    exact ⟨r, done⟩
  · rintro ⟨r, done⟩
    exact ⟨_, r.finished, yields_run_iff_completes.mpr ⟨r, done, rfl, rfl⟩⟩
  · intro f h' ends
    obtain ⟨r, done, rfl, rfl⟩ := yields_run_iff_completes.mp ends
    have seed : (s.emit fresh c).seed = seed := by
      rw [emission, Generator.emit_fst]
      rfl
    refine ⟨r, done, rfl, ?_, done.holds_source_iff⟩
    rw [← seed]
    exact done.delivers (s.size_emit fresh c)
  · intro spares f h' ends
    obtain ⟨r, done, rfl, -⟩ := yields_run_iff_completes.mp ends
    exact done.holds_source_iff.mpr (done.source_untouched spares)

/-- Settings for one instance of each entry, under seed seven. -/
def jumpSettings : Settings :=
  { run := { seed := some 7, outputDir := ⟨"out"⟩, baseName := "jumps" } }

/-- A jump to itself, one over two words and one back over two words. -/
def jumpRecording : Recording :=
  { disassembly := "j ."
    code := some [0x6f, 0, 0, 0, 0x6f, 0, 0x80, 0, 0x6f, 0xf0, 0x9f, 0xff] }

/-- Tools that give back the three jumps. -/
def jumpTools : Toolchain :=
  jumpRecording.toolchain

/-- Control: three jumps whose words differ, but only in their target fields, on an empty disk. The
tools leave the source alone, so it is still there at the end. -/
theorem jumps_run_completes :
    jumpSettings.run.seed = some 7 ∧
      jumpTools.Spares jumpSettings.run.artifacts.source jumpSettings.run.artifacts.object
        jumpSettings.run.artifacts.source ∧
      ∃ f h' r, Yields (run jumpSettings jumpCatalog jumpTools 0) {} f h' ∧
        f.words = [0x6f, 0x80006f, 0xff9ff06f] ∧ r.finished = h' ∧
        jumpSettings.Delivers jumpCatalog
          ((Generator.ofSeed 7).emit jumpSettings.style 1 jumpCatalog).1 7 r f h' ∧
        h'.Holds jumpSettings.run.artifacts.source
          ((Generator.ofSeed 7).emit jumpSettings.style 1 jumpCatalog).1.source := by
  have words : (outcome (run jumpSettings jumpCatalog jumpTools 0) {}).1.toOption.map Fixture.words =
      some [0x6f, 0x80006f, 0xff9ff06f] := by decide +kernel
  have spares := Recording.spares jumpRecording jumpSettings.run.artifacts.source
    (jumpSettings.run.siblings_artifact isExtension_artifacts.object isExtension_artifacts.source
      (by decide))
  rcases ends : outcome (run jumpSettings jumpCatalog jumpTools 0) {} with ⟨result, h'⟩
  rw [ends] at words
  cases result with
  | error e => cases words
  | ok f =>
      obtain ⟨-, delivered, kept⟩ := run_completes (s := jumpSettings) rfl jumpCatalog jumpTools 0 {}
      obtain ⟨r, -, finished, delivers, -⟩ := delivered f h' ends
      exact ⟨rfl, spares, f, h', r, ends, Option.some.inj words, finished, delivers,
        kept spares f h' ends⟩

/-- Tools that give back the three jumps, but whose assembler writes over the source. -/
def carelessTools : Toolchain :=
  { jumpTools with assemble := fun source _ => writeFile source [0x7f] }

/-- Control: a run with tools that write over the source ends well, and leaves a source file that does
not hold the source. -/
theorem run_loses_source :
    jumpSettings.run.seed = some 7 ∧
      ∃ f h', Yields (run jumpSettings jumpCatalog carelessTools 0) {} f h' ∧
        f.words = [0x6f, 0x80006f, 0xff9ff06f] ∧
        ¬ h'.Holds jumpSettings.run.artifacts.source
          ((Generator.ofSeed 7).emit jumpSettings.style 1 jumpCatalog).1.source := by
  have words : (outcome (run jumpSettings jumpCatalog carelessTools 0) {}).1.toOption.map
      Fixture.words = some [0x6f, 0x80006f, 0xff9ff06f] := by decide +kernel
  have left : (outcome (run jumpSettings jumpCatalog carelessTools 0) {}).2.contentOf
      jumpSettings.run.artifacts.source = .ok [0x7f] := by decide +kernel
  have text : Text.utf8 ((Generator.ofSeed 7).emit jumpSettings.style 1 jumpCatalog).1.source ≠
      [0x7f] := by decide +kernel
  rcases ends : outcome (run jumpSettings jumpCatalog carelessTools 0) {} with ⟨result, h'⟩
  rw [ends] at words left
  cases result with
  | error e => cases words
  | ok f =>
      refine ⟨rfl, f, h', ends, Option.some.inj words, fun holds => text ?_⟩
      exact Except.ok.inj (holds.symm.trans left)

end EncoderVectors
