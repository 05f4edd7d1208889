import EncoderVectors.Proofs.Run.Success

/-!
# Where a run stops

A run that fails stops at one step: all steps before it ended well, this one did not, and what it left
is what the run leaves (`Settings.StopsAt`, `exists_stop`). `Settings.Reaches` follows a run step by
step, with the hosts between the steps and what the tools gave back; induction on it is how facts about
one step become facts about a run.
-/

set_option autoImplicit false

namespace EncoderVectors

open Host

/-- The steps of a run, in order. -/
inductive Step where
  /-- The labels are checked. -/
  | reach
  /-- The directory is made. -/
  | directory
  /-- The source is written. -/
  | source
  /-- The source is assembled. -/
  | assemble
  /-- The object is disassembled, if that is asked for. -/
  | disassemble
  /-- The code is taken out of the object. -/
  | extract
  /-- The words are counted, paired with the instructions and compared. -/
  | pairing
  /-- The listing is written. -/
  | listing
  /-- The fixture is written. -/
  | fixture
  deriving DecidableEq, Repr

/-- The host that a step starts on. -/
def Progress.before (r : Progress) (h : Host) : Step → Host
  | .reach | .directory => h
  | .source => r.made
  | .assemble => r.sourced
  | .disassemble => r.assembled
  | .extract => r.disassembled
  | .pairing | .listing => r.extracted
  | .fixture => r.listed

namespace Settings

/-- A run gets as far as a step: every step before it ended well. -/
inductive Reaches (s : Settings) (c : Catalog) (t : Toolchain) (e : Emission) (h : Host)
    (r : Progress) : Step → Prop where
  /-- The labels are checked first. -/
  | start : Reaches s c t e h r .reach
  /-- All labels are in reach. -/
  | reach (earlier : Reaches s c t e h r .reach)
      (ends : c.checkReach s.run.instances = .ok ()) : Reaches s c t e h r .directory
  /-- The directory was made. -/
  | directory (earlier : Reaches s c t e h r .directory)
      (ends : Yields (makeDirs s.run.outputDir) h () r.made) : Reaches s c t e h r .source
  /-- The source was written. -/
  | source (earlier : Reaches s c t e h r .source)
      (ends : Yields (writeText s.run.artifacts.source e.source) r.made () r.sourced) :
      Reaches s c t e h r .assemble
  /-- The source was assembled. -/
  | assemble (earlier : Reaches s c t e h r .assemble)
      (ends : Yields (t.assemble s.run.artifacts.source s.run.artifacts.object) r.sourced ()
        r.assembled) : Reaches s c t e h r .disassemble
  /-- The object was disassembled. -/
  | disassemble {text : String} (earlier : Reaches s c t e h r .disassemble)
      (wanted : s.run.includeDisassembly = true) (kept : r.disassembly = some text)
      (ends : Yields (t.disassemble s.run.artifacts.object) r.assembled text r.disassembled) :
      Reaches s c t e h r .extract
  /-- No disassembly was asked for. -/
  | skip (earlier : Reaches s c t e h r .disassemble)
      (unwanted : s.run.includeDisassembly = false) (kept : r.disassembly = none)
      (same : r.disassembled = r.assembled) : Reaches s c t e h r .extract
  /-- The code was taken out. -/
  | extract (earlier : Reaches s c t e h r .extract)
      (ends : Yields (t.extract s.run.artifacts.object) r.disassembled r.code r.extracted) :
      Reaches s c t e h r .pairing
  /-- The code makes a fixture: all checks are passed. -/
  | pairing (earlier : Reaches s c t e h r .pairing)
      (ends : Fixture.ofCode e r.code = .ok (e.fixtureOf r.code)) : Reaches s c t e h r .listing
  /-- The listing was written. -/
  | listing (earlier : Reaches s c t e h r .listing)
      (ends : Yields (writeText s.run.artifacts.listing
        (e.listing s.style (e.fixtureOf r.code).words r.disassembly)) r.extracted () r.listed) :
      Reaches s c t e h r .fixture

/-- A disassembly that is there if it was asked for is one that ended well or was left out. -/
theorem Reaches.extract_of_given {s : Settings} {c : Catalog} {t : Toolchain} {e : Emission} {h : Host}
    {r : Progress} (earlier : s.Reaches c t e h r .disassemble)
    (given : if s.run.includeDisassembly then
        ∃ text, r.disassembly = some text ∧
          Yields (t.disassemble s.run.artifacts.object) r.assembled text r.disassembled
      else r.disassembly = none ∧ r.disassembled = r.assembled) : s.Reaches c t e h r .extract := by
  by_cases wanted : s.run.includeDisassembly = true
  · rw [if_pos wanted] at given
    obtain ⟨text, kept, ends⟩ := given
    exact .disassemble earlier wanted kept ends
  · rw [if_neg wanted] at given
    exact .skip earlier (by simpa using wanted) given.1 given.2

/-- A step fails on the host that it starts on. -/
def FailsAt (s : Settings) (c : Catalog) (t : Toolchain) (e : Emission) (h : Host) (r : Progress)
    (err : Error) (h' : Host) : Step → Prop
  | .reach => Fails (liftFault .reach (c.checkReach s.run.instances)) h err h'
  | .directory => Fails (makeDirs s.run.outputDir) h err h'
  | .source => Fails (writeText s.run.artifacts.source e.source) r.made err h'
  | .assemble =>
      Fails (t.assemble s.run.artifacts.source s.run.artifacts.object) r.sourced err h'
  | .disassemble =>
      s.run.includeDisassembly = true ∧
        Fails (t.disassemble s.run.artifacts.object) r.assembled err h'
  | .extract => Fails (t.extract s.run.artifacts.object) r.disassembled err h'
  | .pairing => Fails (liftFault id (Fixture.ofCode e r.code)) r.extracted err h'
  | .listing =>
      Fails (writeText s.run.artifacts.listing
        (e.listing s.style (e.fixtureOf r.code).words r.disassembly)) r.extracted err h'
  | .fixture =>
      Fails (writeText s.run.artifacts.fixture (e.fixtureOf r.code).toJson) r.listed err h'

/-- A run stops at a step: those before it ended well, and it fails. -/
structure StopsAt (s : Settings) (c : Catalog) (t : Toolchain) (e : Emission) (h : Host)
    (r : Progress) (step : Step) (err : Error) (h' : Host) : Prop where
  /-- The run gets there. -/
  reached : s.Reaches c t e h r step
  /-- The step fails, and what it leaves is what the run leaves. -/
  failed : s.FailsAt c t e h r err h' step

end Settings

/-! ## Where a run stops -/

theorem fails_process {t : Toolchain} {s : RunSettings} {h h' : Host} {err : Error}
    (fails : Fails (t.process s) h err h') :
    Fails (t.assemble s.artifacts.source s.artifacts.object) h err h' ∨
      ∃ assembled, Yields (t.assemble s.artifacts.source s.artifacts.object) h () assembled ∧
        (s.includeDisassembly = true ∧ Fails (t.disassemble s.artifacts.object) assembled err h' ∨
          ∃ disassembly disassembled,
            (if s.includeDisassembly then
              ∃ text, disassembly = some text ∧
                Yields (t.disassemble s.artifacts.object) assembled text disassembled
            else disassembly = none ∧ disassembled = assembled) ∧
            Fails (t.extract s.artifacts.object) disassembled err h') := by
  unfold Toolchain.process at fails
  dsimp only at fails
  by_cases wanted : s.includeDisassembly = true
  · simp only [wanted, if_true, true_and] at fails ⊢
    rcases fails_bind_iff.mp fails with first | ⟨_, assembled, first, afterFirst⟩
    · exact Or.inl first
    · refine Or.inr ⟨assembled, first, ?_⟩
      rcases fails_bind_iff.mp afterFirst with second | ⟨_, disassembled, mapped, afterSecond⟩
      · exact Or.inl (fails_map_iff.mp second)
      · obtain ⟨text, second, rfl⟩ := yields_map_iff.mp mapped
        rcases fails_bind_iff.mp afterSecond with third | ⟨_, _, -, last⟩
        · exact Or.inr ⟨some text, disassembled, ⟨text, rfl, second⟩, third⟩
        · exact absurd last not_fails_pure
  · simp only [wanted, Bool.false_eq_true, if_false, false_and, false_or] at fails ⊢
    rcases fails_bind_iff.mp fails with first | ⟨_, assembled, first, afterFirst⟩
    · exact Or.inl first
    · refine Or.inr ⟨assembled, first, ?_⟩
      rcases fails_bind_iff.mp afterFirst with second | ⟨_, disassembled, second, afterSecond⟩
      · exact absurd second not_fails_pure
      · obtain ⟨-, rfl⟩ := yields_pure_iff.mp second
        rcases fails_bind_iff.mp afterSecond with third | ⟨_, _, -, last⟩
        · exact ⟨none, disassembled, ⟨rfl, rfl⟩, third⟩
        · exact absurd last not_fails_pure

/-- Tools that fail stop the run at one of their steps. -/
theorem exists_stop_process {s : Settings} {c : Catalog} {t : Toolchain} {e : Emission} {h h' : Host}
    {made sourced : Host} {err : Error} (reach : c.checkReach s.run.instances = .ok ())
    (directory : Yields (makeDirs s.run.outputDir) h () made)
    (source : Yields (writeText s.run.artifacts.source e.source) made () sourced)
    (fails : Fails (t.process s.run) sourced err h') :
    ∃ r step, s.StopsAt c t e h r step err h' := by
  -- hosts that the run did not get to are never asked for, and filled in with the last one
  rcases fails_process fails with first | ⟨assembled, first, later⟩
  · let r : Progress := ⟨made, sourced, h', h', h', h', h', none, []⟩
    have reached : s.Reaches c t e h r .assemble :=
      .source (.directory (.reach .start reach) directory) source
    exact ⟨r, .assemble, reached, first⟩
  · rcases later with ⟨wanted, second⟩ | ⟨disassembly, disassembled, given, third⟩
    · let r : Progress := ⟨made, sourced, assembled, h', h', h', h', none, []⟩
      have reached : s.Reaches c t e h r .disassemble :=
        .assemble (.source (.directory (.reach .start reach) directory) source) first
      exact ⟨r, .disassemble, reached, wanted, second⟩
    · let r : Progress := ⟨made, sourced, assembled, disassembled, h', h', h', disassembly, []⟩
      have reached : s.Reaches c t e h r .disassemble :=
        .assemble (.source (.directory (.reach .start reach) directory) source) first
      exact ⟨r, .extract, reached.extract_of_given given, third⟩

/-- A run that fails stops at one of its steps. -/
theorem exists_stop {s : Settings} {c : Catalog} {t : Toolchain} {fresh : UInt64} {h h' : Host}
    {err : Error} (fails : Fails (run s c t fresh) h err h') :
    ∃ r step, s.StopsAt c t (s.emit fresh c) h r step err h' := by
  unfold run at fails
  rcases fails_bind_iff.mp fails with atReach | ⟨_, _, checked, afterReach⟩
  · exact ⟨⟨h', h', h', h', h', h', h', none, []⟩, .reach, .start, atReach⟩
  obtain ⟨reach, same⟩ := yields_liftFault_iff.mp checked
  rw [same] at afterReach
  rcases fails_bind_iff.mp afterReach with atDirectory | ⟨_, made, directory, afterMade⟩
  · exact ⟨⟨h', h', h', h', h', h', h', none, []⟩, .directory, .reach .start reach, atDirectory⟩
  rcases fails_bind_iff.mp afterMade with atSource | ⟨_, sourced, source, afterSource⟩
  · let r : Progress := ⟨made, h', h', h', h', h', h', none, []⟩
    have reached : s.Reaches c t (s.emit fresh c) h r .source :=
      .directory (.reach .start reach) directory
    exact ⟨r, .source, reached, atSource⟩
  rcases fails_bind_iff.mp afterSource with tools | ⟨⟨disassembly, code⟩, extracted, tools, later⟩
  · exact exists_stop_process reach directory source tools
  -- from here on the tools are done, and all hosts up to the listing are known
  obtain ⟨assembled, disassembled, assemble, given, extract⟩ := yields_process_iff.mp tools
  have reached (listed finished : Host) : s.Reaches c t (s.emit fresh c) h
      ⟨made, sourced, assembled, disassembled, extracted, listed, finished, disassembly, code⟩
      .pairing := by
    have earlier : s.Reaches c t (s.emit fresh c) h
        ⟨made, sourced, assembled, disassembled, extracted, listed, finished, disassembly, code⟩
        .disassemble :=
      .assemble (.source (.directory (.reach .start reach) directory) source) assemble
    exact .extract (earlier.extract_of_given given) extract
  rcases fails_bind_iff.mp later with atPairing | ⟨f, _, lifted, afterPairing⟩
  · exact ⟨_, .pairing, reached h' h', atPairing⟩
  obtain ⟨paired, rfl⟩ := yields_liftFault_iff.mp lifted
  -- the fixture is the one that is named by the code alone
  obtain ⟨-, -, rfl⟩ := Fixture.ofCode_eq_ok_iff.mp paired
  rcases fails_bind_iff.mp afterPairing with atListing | ⟨_, listed, listing, afterListing⟩
  · exact ⟨_, .listing, .pairing (reached h' h') paired, atListing⟩
  rcases fails_bind_iff.mp afterListing with atFixture | ⟨_, _, -, last⟩
  · exact ⟨_, .fixture, .listing (.pairing (reached listed h') paired) listing, atFixture⟩
  · exact absurd last not_fails_pure

end EncoderVectors
