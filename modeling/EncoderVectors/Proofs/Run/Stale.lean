import EncoderVectors.Proofs.Emission.Source
import EncoderVectors.Proofs.Fixture.RoundTrip
import EncoderVectors.Proofs.Run.Failure
import EncoderVectors.Proofs.Text.Utf8

/-!
# Source and fixture after a failed run

A run replaces the source early and the fixture last. A run that ends well leaves a source and a
fixture of one emission: what stands after the tabs of the source are the assembly texts of the
fixture (`Artifacts.Current`). A run that fails leaves the fixture of an earlier run as it was. Whether
the source beside it is still the one that fixture was made from depends on where the run stops and on
what it emits (`failed_run_current_iff`): up to the step that writes the source nothing is lost, and
after it the two belong together only if the new emission has the assembly texts of the old one.

So a failed run can leave a fixture beside a source that it was not made from
(`earlier_fixture_outlives_source`).
-/

set_option autoImplicit false

namespace EncoderVectors

open Host

/-! ## Texts of a source and of a fixture -/

/-- What stands after the tabs of a source, line by line. -/
def Text.tabbed (source : String) : List String :=
  (lines source).filterMap afterTab?

/-- The assembly texts of a fixture. -/
def Fixture.assembly (f : Fixture) : List String :=
  f.vectors.map TestVector.assembly

/-- After the tabs of the source stand the instructions of its emission. -/
theorem Settings.tabbed_source (s : Settings) (fresh : UInt64) (c : Catalog) :
    Text.tabbed (s.emit fresh c).source = (s.emit fresh c).instructions.map Instruction.assembly := by
  have spelled : (s.emit fresh c).Spelled := Generator.spelled_emit _ s.style s.run.instances c
  have labels : Text.afterTab? "back:" = none ∧ Text.afterTab? "forth:" = none := by decide
  rw [Text.tabbed, spelled.lines_source, Emission.sourceLines_eq, List.filterMap_append,
    List.filterMap_cons_none labels.1, List.filterMap_cons_none labels.2, List.filterMap_nil,
    List.append_nil, Emission.tabbed_bodyLines]

theorem Emission.assembly_fixtureOf (e : Emission) (code : List UInt8) :
    (e.fixtureOf code).assembly = e.instructions.map Instruction.assembly := by
  apply List.ext_getElem
  · simp [Fixture.assembly, Emission.length_vectors_fixtureOf, size]
  · intro i _ _
    simp [Fixture.assembly, fixtureOf, Fixture.vector]

/-- No two fixtures have one text. -/
theorem Fixture.eq_of_toJson_eq {f g : Fixture} (same : f.toJson = g.toJson) : f = g := by
  have text : Json.IsText g.toValue f.toJson := same ▸ g.writes_toJson.isText
  have value : f.toValue = g.toValue := f.writes_toJson.isText.unique text
  have read := f.ofValue?_toValue
  rw [value, g.ofValue?_toValue] at read
  exact (Option.some.inj read).symm

/-- A file holds one text. -/
theorem Host.Holds.unique {h : Host} {p : Path} {a b : String} (first : h.Holds p a)
    (second : h.Holds p b) : a = b := by
  apply Text.utf8_injective
  exact Except.ok.inj (first.symm.trans second)

/-! ## The source that a run leaves -/

/-- The step comes before the source is replaced. -/
def Step.leavesSource : Step → Bool
  | .reach | .directory | .source => true
  | .assemble | .disassemble | .extract | .pairing | .listing | .fixture => false

namespace Settings

variable {s : Settings} {c : Catalog} {t : Toolchain} {e : Emission} {h h' : Host} {r : Progress}
  {step : Step} {err : Error}

/-- What touches the object and its copy only leaves the source as it was. -/
theorem keeps_source (s : Settings)
    (touched : TouchesOnly [s.run.artifacts.object, s.run.artifacts.object.withExtension "bin"] h h') :
    Keeps s.run.artifacts.source h h' := by
  obtain ⟨source, object, listing, -⟩ := isExtension_artifacts
  obtain ⟨-, -, slash, text⟩ := s.run.siblings_artifact listing source (by decide)
  apply touched.keeps text slash
  intro q listed
  rcases List.mem_pair.mp listed with rfl | rfl
  · exact s.run.place_artifact_ne h source object (by decide)
  · exact s.run.place_binary_ne h source (by decide)

/-- From the step after it on, the source is the one that was written: the tools keep to the object,
and the listing lies beside it. -/
theorem Reaches.holds_source (confined : t.Confined) (reached : s.Reaches c t e h r step)
    (late : step.leavesSource = false) :
    (r.before h step).Holds s.run.artifacts.source e.source := by
  induction reached with
  | start | reach | directory => cases late
  | source _ ends _ => exact holds_of_writeText ends
  | assemble _ ends ih =>
      have works := confined.assemble s.run.artifacts.source s.run.artifacts.object r.sourced
      rw [ends] at works
      exact (s.keeps_source works.files).content _ (ih rfl)
  | disassemble _ _ _ ends ih =>
      have works := confined.disassemble s.run.artifacts.object r.assembled
      rw [ends] at works
      exact (s.keeps_source works.files).content _ (ih rfl)
  | skip _ _ _ same ih =>
      change r.disassembled.Holds _ _
      rw [same]
      exact ih rfl
  | extract _ ends ih =>
      have works := confined.extract s.run.artifacts.object r.disassembled
      rw [ends] at works
      exact (s.keeps_source works.files).content _ (ih rfl)
  | pairing _ _ ih => exact ih rfl
  | listing _ ends ih =>
      obtain ⟨source, -, text, -⟩ := isExtension_artifacts
      have beside := contentOf_writeText (s.run.siblings_artifact text source (by decide)) ends
      exact beside.trans (ih rfl)

/-- A run that stops after the source was written leaves that source. -/
theorem StopsAt.holds_source (confined : t.Confined) (stops : s.StopsAt c t e h r step err h')
    (late : step.leavesSource = false) : h'.Holds s.run.artifacts.source e.source :=
  (s.keeps_source (stops.failed.touches confined)).content _
    (stops.reached.holds_source confined late)

/-- A run that stops earlier leaves the source that was there. -/
theorem StopsAt.keeps_source (confined : t.Confined) (stops : s.StopsAt c t e h r step err h')
    (early : step.leavesSource = true) : Keeps s.run.artifacts.source h h' := by
  have none : step.touched s.run.artifacts = [] := by
    cases step with
    | reach | directory | source => rfl
    | _ => cases early
  have touched := stops.touches confined
  rw [none, List.nil_append] at touched
  exact s.keeps_source touched

/-- A tool is missed only after the source was written. -/
theorem FailsAt.leavesSource_of_toolMissing {tool : String}
    (failed : s.FailsAt c t e h r (.toolMissing tool) h' step) : step.leavesSource = false := by
  cases step with
  | reach =>
      obtain ⟨_, -, wrong, -⟩ := fails_liftFault_iff.mp failed
      cases wrong
  | directory =>
      obtain ⟨_, wrong⟩ := exists_fault_of_makeDirs failed
      cases wrong
  | source =>
      obtain ⟨_, wrong, -⟩ := exists_fault_of_writeText failed
      cases wrong
  | _ => rfl

/-- A run that completes gets to its last step. -/
theorem Completes.reaches (done : s.Completes c t e h r) (size : e.size = c.words s.run.instances) :
    s.Reaches c t e h r .fixture := by
  have assembled : s.Reaches c t e h r .disassemble :=
    .assemble (.source (.directory (.reach .start done.reach) done.directory) done.source)
      done.assemble
  have extracted : s.Reaches c t e h r .pairing :=
    .extract (assembled.extract_of_given done.disassemble) done.extract
  have paired : Fixture.ofCode e r.code = .ok (e.fixtureOf r.code) := by
    rw [Fixture.ofCode_eq_ok_iff, size]
    exact ⟨done.length, done.agreement, rfl⟩
  refine .listing (.pairing extracted paired) ?_
  rw [Emission.words_fixtureOf, size]
  exact done.listing

/-- A run that completes leaves the source that it wrote. -/
theorem Completes.holds_source (confined : t.Confined) (done : s.Completes c t e h r)
    (size : e.size = c.words s.run.instances) :
    r.finished.Holds s.run.artifacts.source e.source := by
  obtain ⟨source, -, -, json⟩ := isExtension_artifacts
  have beside := contentOf_writeText (s.run.siblings_artifact json source (by decide)) done.fixture
  have kept := (done.reaches size).holds_source confined rfl
  exact beside.trans kept

end Settings

/-! ## What an earlier run leaves -/

/-- Whatever fixture is in its file, beside it lies the source that it was made from: its assembly
texts are what stands after the tabs there. -/
def Artifacts.Current (files : Artifacts) (h : Host) : Prop :=
  ∀ f : Fixture, h.Holds files.fixture f.toJson →
    ∃ source, h.Holds files.source source ∧ Text.tabbed source = f.assembly

/-- A run that ends well leaves its fixture and its source, and they belong together. -/
theorem holds_of_yields_run {s : Settings} {c : Catalog} {t : Toolchain} (confined : t.Confined)
    {fresh : UInt64} {h h' : Host} {f : Fixture} (ends : Yields (run s c t fresh) h f h') :
    h'.Holds s.run.artifacts.fixture f.toJson ∧
      h'.Holds s.run.artifacts.source (s.emit fresh c).source ∧
      Text.tabbed (s.emit fresh c).source = f.assembly := by
  obtain ⟨r, done, rfl, rfl⟩ := yields_run_iff_completes.mp ends
  refine ⟨holds_of_writeText done.fixture, ?_, ?_⟩
  · exact done.holds_source confined (s.size_emit fresh c)
  · rw [s.tabbed_source, Emission.assembly_fixtureOf]

/-- What a run finds at the paths of its source, listing and fixture: nothing, or the files of an
earlier run into the same directory under the same name. -/
inductive RunSettings.Finds (s : RunSettings) (h : Host) : Prop where
  /-- There are no such files. -/
  | absent (source : h.stored? s.artifacts.source = none)
      (listing : h.stored? s.artifacts.listing = none)
      (fixture : h.stored? s.artifacts.fixture = none)
  /-- The files are those that an earlier run left when it ended well. -/
  | left {s₀ : Settings} {c₀ : Catalog} {t₀ : Toolchain} {fresh₀ : UInt64} {h₀ h₁ : Host}
      {f₀ : Fixture} (directory : s₀.run.outputDir = s.outputDir)
      (name : s₀.run.baseName = s.baseName) (confined : t₀.Confined)
      (ended : Yields (run s₀ c₀ t₀ fresh₀) h₀ f₀ h₁)
      (kept : ∀ p ∈ [s.artifacts.source, s.artifacts.listing, s.artifacts.fixture],
        h.contentOf p = h₁.contentOf p)

namespace RunSettings.Finds

variable {s : RunSettings} {h h' : Host}

theorem exists_earlier (found : s.Finds h) :
    h.stored? s.artifacts.fixture = none ∨
      ∃ (f : Fixture) (source : String), h.Holds s.artifacts.fixture f.toJson ∧ h.Holds s.artifacts.source source ∧
        Text.tabbed source = f.assembly := by
  cases found with
  | absent _ _ fixture => exact Or.inl fixture
  | @left s₀ c₀ t₀ fresh₀ h₀ h₁ f₀ directory name confined ended kept =>
      have files : s₀.run.artifacts = s.artifacts := by
        simp only [artifacts, artifact, directory, name]
      obtain ⟨fixture, source, texts⟩ := holds_of_yields_run confined ended
      rw [files] at fixture source
      refine Or.inr ⟨f₀, _, ?_, ?_, texts⟩
      · exact (kept _ (by simp)).trans fixture
      · exact (kept _ (by simp)).trans source

theorem not_holds_fixture (vacant : h.stored? s.artifacts.fixture = none) (text : String) :
    ¬ h.Holds s.artifacts.fixture text := by
  obtain ⟨source, -, -, json⟩ := isExtension_artifacts
  obtain ⟨-, -, slash, named⟩ := s.siblings_artifact source json (by decide)
  have keeps : Keeps s.artifacts.fixture h h := (TouchesOnly.refl [] h).keeps named slash (by simp)
  exact keeps.absent vacant _

/-- What a run finds belongs together. -/
theorem current (found : s.Finds h) : s.artifacts.Current h := by
  intro f held
  rcases found.exists_earlier with vacant | ⟨f₀, source, fixture, holds, texts⟩
  · exact absurd held (not_holds_fixture vacant _)
  · obtain rfl := Fixture.eq_of_toJson_eq (held.unique fixture)
    exact ⟨source, holds, texts⟩

/-- A fixture that is kept is read as it was found. -/
theorem holds_iff (found : s.Finds h) (keeps : Keeps s.artifacts.fixture h h') (text : String) :
    h'.Holds s.artifacts.fixture text ↔ h.Holds s.artifacts.fixture text := by
  rcases found.exists_earlier with vacant | ⟨f₀, -, fixture, -⟩
  · constructor
    · intro held
      exact absurd held (keeps.absent vacant _)
    · intro held
      exact absurd held (not_holds_fixture vacant text)
  · constructor
    · intro held
      rw [held.unique (keeps.content _ fixture)]
      exact fixture
    · exact keeps.content _

end RunSettings.Finds

/-! ## The main statement -/

/-- A run that fails leaves the fixture that it found. The source beside it is the one that fixture was
made from exactly when the run stopped before it replaced the source, or its own emission has the
assembly texts of the fixture; so it is if there was no fixture. -/
theorem failed_run_current_iff {t : Toolchain} (confined : t.Confined) (s : Settings) (c : Catalog)
    (fresh : UInt64) {h h' : Host} {err : Error} (found : s.run.Finds h)
    (fails : Fails (run s c t fresh) h err h') :
    (∀ text, h'.Holds s.run.artifacts.fixture text ↔ h.Holds s.run.artifacts.fixture text) ∧
      ∃ r step, s.StopsAt c t (s.emit fresh c) h r step err h' ∧
        (s.run.artifacts.Current h' ↔ step.leavesSource = true ∨
          ∀ f : Fixture, h.Holds s.run.artifacts.fixture f.toJson →
            f.assembly = (s.emit fresh c).instructions.map Instruction.assembly) := by
  obtain ⟨r, step, stops⟩ := exists_stop fails
  have same := found.holds_iff (stops.spares confined).fixture
  refine ⟨same, r, step, stops, ?_⟩
  cases place : step.leavesSource with
  | true =>
      have keeps := stops.keeps_source confined place
      refine iff_of_true ?_ (Or.inl rfl)
      intro f held
      obtain ⟨source, holds, texts⟩ := found.current f ((same _).mp held)
      exact ⟨source, keeps.content _ holds, texts⟩
  | false =>
      have holds := stops.holds_source confined place
      have tabbed := s.tabbed_source fresh c
      constructor
      · intro current
        refine Or.inr ?_
        intro f held
        obtain ⟨source, other, texts⟩ := current f ((same _).mpr held)
        rw [← texts, other.unique holds, tabbed]
      · rintro (wrong | equal) f held
        · cases wrong
        · exact ⟨_, holds, tabbed.trans (equal f ((same _).mp held)).symm⟩

/-! ## Two runs, one after the other -/

/-- What a run that emits one jump leaves on an empty disk. -/
def jumpHost : Host :=
  (outcome (run jumpSettings jumpCatalog jumpTools 0) {}).2

/-- The settings of the first run, but with every entry emitted twice. -/
def twiceSettings : Settings :=
  { jumpSettings with run := { jumpSettings.run with instances := 2 } }

/-- The first run ends well, and its fixture has the three forms of a jump. -/
theorem exists_jumpFixture :
    ∃ f, Yields (run jumpSettings jumpCatalog jumpTools 0) {} f jumpHost ∧
      f.assembly = ["j\t.", "j\tforth", "j\tback"] := by
  have texts : (outcome (run jumpSettings jumpCatalog jumpTools 0) {}).1.toOption.map
      Fixture.assembly = some ["j\t.", "j\tforth", "j\tback"] := by decide +kernel
  rcases ends : outcome (run jumpSettings jumpCatalog jumpTools 0) {} with ⟨result, h₁⟩
  rw [ends] at texts
  cases result with
  | error e => cases texts
  | ok f =>
      have host : jumpHost = h₁ := congrArg Prod.snd ends
      rw [host]
      exact ⟨f, ends, Option.some.inj texts⟩

/-- A run into the same directory under the same name finds the files of the first run. -/
theorem finds_jumpHost {s : RunSettings} (directory : jumpSettings.run.outputDir = s.outputDir)
    (name : jumpSettings.run.baseName = s.baseName) : s.Finds jumpHost := by
  obtain ⟨f, ends, -⟩ := exists_jumpFixture
  exact .left directory name jumpRecording.confined ends fun _ _ => rfl

/-- Control: the same run again, without an assembler, writes the source that was there, and source
and fixture still belong together. -/
theorem failed_rerun_current :
    noAssembler.Confined ∧ jumpSettings.run.Finds jumpHost ∧
      ∃ h', Fails (run jumpSettings jumpCatalog noAssembler 0) jumpHost (.toolMissing "as") h' ∧
        jumpSettings.run.artifacts.Current h' := by
  have confined : noAssembler.Confined := Recording.confined _
  have found : jumpSettings.run.Finds jumpHost := finds_jumpHost rfl rfl
  have error : (outcome (run jumpSettings jumpCatalog noAssembler 0) jumpHost).1 =
      .error (.toolMissing "as") := by decide +kernel
  have fails := fails_of_outcome error
  obtain ⟨-, r, step, -, current⟩ :=
    failed_run_current_iff confined jumpSettings jumpCatalog 0 found fails
  refine ⟨confined, found, _, fails, current.mpr (Or.inr ?_)⟩
  -- the only fixture there is the one of the first run
  intro f held
  obtain ⟨f₀, ends, -⟩ := exists_jumpFixture
  obtain ⟨fixture, -, texts⟩ := holds_of_yields_run jumpRecording.confined ends
  obtain rfl := Fixture.eq_of_toJson_eq (held.unique fixture)
  rw [← texts, Settings.tabbed_source]

/-- The fixture of one jump is left beside the source of two: a run with every entry emitted twice
finds no assembler, but it has replaced the source already. -/
theorem earlier_fixture_outlives_source :
    ∃ f h', Yields (run jumpSettings jumpCatalog jumpTools 0) {} f jumpHost ∧
      twiceSettings.run.Finds jumpHost ∧ noAssembler.Confined ∧
      Fails (run twiceSettings jumpCatalog noAssembler 0) jumpHost (.toolMissing "as") h' ∧
      h'.Holds twiceSettings.run.artifacts.fixture f.toJson ∧
      h'.Holds twiceSettings.run.artifacts.source (twiceSettings.emit 0 jumpCatalog).source ∧
      ¬ twiceSettings.run.artifacts.Current h' := by
  have found : twiceSettings.run.Finds jumpHost := finds_jumpHost rfl rfl
  have confined : noAssembler.Confined := Recording.confined _
  obtain ⟨f, ends, texts⟩ := exists_jumpFixture
  obtain ⟨fixture, -, -⟩ := holds_of_yields_run jumpRecording.confined ends
  have error : (outcome (run twiceSettings jumpCatalog noAssembler 0) jumpHost).1 =
      .error (.toolMissing "as") := by decide +kernel
  have fails := fails_of_outcome error
  have emitted : Text.tabbed (twiceSettings.emit 0 jumpCatalog).source ≠
      ["j\t.", "j\tforth", "j\tback"] := by decide +kernel
  obtain ⟨r, step, stops⟩ := exists_stop fails
  have source := stops.holds_source confined stops.failed.leavesSource_of_toolMissing
  have kept := (stops.spares confined).fixture.content _ fixture
  refine ⟨f, _, ends, found, confined, fails, kept, source, ?_⟩
  intro current
  obtain ⟨other, held, same⟩ := current f kept
  rw [held.unique source, texts] at same
  exact emitted same

end EncoderVectors
