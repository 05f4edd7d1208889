import EncoderVectors.Proofs.Emission.LabelReach
import EncoderVectors.Proofs.Host.Places
import EncoderVectors.Proofs.Run.Stop
import EncoderVectors.Proofs.Toolchain.Confinement

/-!
# Runs that fail

Each step of a run touches the file it writes, and the tools touch the object and its copy. All of
these lie at other places than the fixture. So whatever stops a run, the fixture is what it was; and
the listing is what it was unless only the fixture could not be written (`failed_run_spares`).

The tools are arbitrary actions on the host that keep to the object (`Toolchain.Confined`). With their
calls logged, the log shows those up to the step that failed and no others. If the labels are out of
reach nothing is done at all, and tools that never say so themselves (`Toolchain.LeavesLabels`) leave no
doubt about it.

Two things are not promised, and both can happen (`failed_run_disturbs`). A tool may touch the object
and then report a label out of reach. And a path that leads nowhere before a run may lead to a file
after it, because the run has made a directory on the way; the file itself is what it was.
-/

set_option autoImplicit false

namespace EncoderVectors

open Host

/-! ## What a run touches -/

namespace RunSettings

/-- The call of the assembler as it is logged. -/
def assembleCall (s : RunSettings) : List String :=
  ["assemble", s.artifacts.source.text, s.artifacts.object.text]

/-- The call of the disassembler as it is logged; there is none if no disassembly is asked for. -/
def disassembleCalls (s : RunSettings) : List (List String) :=
  if s.includeDisassembly then [["disassemble", s.artifacts.object.text]] else []

/-- The call that takes out the code, as it is logged. -/
def extractCall (s : RunSettings) : List String :=
  ["extract", s.artifacts.object.text]

end RunSettings

namespace Step

/-- The files that are touched before a step. -/
def touched (files : Artifacts) : Step → List Path
  | .reach | .directory | .source => []
  | .assemble => [files.source]
  | .disassemble | .extract | .pairing | .listing =>
      [files.source, files.object, files.object.withExtension "bin"]
  | .fixture =>
      [files.listing, files.source, files.object, files.object.withExtension "bin"]

/-- The calls of tools that are made before a step. -/
def earlierCalls (s : RunSettings) : Step → List (List String)
  | .reach | .directory | .source | .assemble => []
  | .disassemble => [s.assembleCall]
  | .extract => s.assembleCall :: s.disassembleCalls
  | .pairing | .listing | .fixture => s.assembleCall :: s.disassembleCalls ++ [s.extractCall]

/-- The calls of tools that a step itself makes. -/
def ownCalls (s : RunSettings) : Step → List (List String)
  | .assemble => [s.assembleCall]
  | .disassemble => s.disassembleCalls
  | .extract => [s.extractCall]
  | .reach | .directory | .source | .pairing | .listing | .fixture => []

/-- The step calls a tool. -/
def usesTool : Step → Bool
  | .assemble | .disassemble | .extract => true
  | .reach | .directory | .source | .pairing | .listing | .fixture => false

end Step

/-- Pairing never reports a label out of reach. -/
theorem Fixture.ofCode_ne_reach (e : Emission) (code : List UInt8) (fault : Catalog.OutOfReach) :
    Fixture.ofCode e code ≠ .error (.reach fault) := by
  unfold Fixture.ofCode
  split
  · simp
  · split <;> simp

namespace Settings

variable {s : Settings} {c : Catalog} {t : Toolchain} {e : Emission} {h h' : Host} {r : Progress}
  {step : Step} {err : Error}

/-- What a run has touched when it gets to a step: each step that ended well adds its own files. -/
theorem Reaches.touches (confined : t.Confined) (reached : s.Reaches c t e h r step) :
    TouchesOnly (step.touched s.run.artifacts) h (r.before h step) := by
  induction reached with
  | start => exact .refl _ h
  | reach earlier ends ih => exact ih
  | directory earlier ends ih =>
      -- directories are no files, so making them leaves the footprint empty
      have made := touchesOnly_makeDirs s.run.outputDir h
      rwa [ends] at made
  | source earlier ends ih =>
      exact ih.followed (touchesOnly_writeText ends) (by simp [Step.touched])
        (by simp [Step.touched])
  | assemble earlier ends ih =>
      have works := confined.assemble s.run.artifacts.source s.run.artifacts.object r.sourced
      rw [ends] at works
      exact ih.followed works.files (by simp [Step.touched]) (by simp [Step.touched])
  | disassemble earlier wanted kept ends ih =>
      have works := confined.disassemble s.run.artifacts.object r.assembled
      rw [ends] at works
      exact ih.followed works.files (by simp [Step.touched]) (by simp [Step.touched])
  | skip earlier unwanted kept same ih =>
      -- without disassembly the host is the one that the assembler leaves
      change TouchesOnly _ h r.disassembled
      rw [same]
      exact ih
  | extract earlier ends ih =>
      have works := confined.extract s.run.artifacts.object r.disassembled
      rw [ends] at works
      exact ih.followed works.files (by simp [Step.touched]) (by simp [Step.touched])
  | pairing earlier ends ih => exact ih
  | listing earlier ends ih =>
      exact ih.followed (touchesOnly_writeText ends) (by simp [Step.touched])
        (by simp [Step.touched])

/-- A step that fails has touched the object and its copy at most. -/
theorem FailsAt.touches (confined : t.Confined) (failed : s.FailsAt c t e h r err h' step) :
    TouchesOnly [s.run.artifacts.object, s.run.artifacts.object.withExtension "bin"]
      (r.before h step) h' := by
  -- a check or a write that fails changes nothing, so only the tools are left to look at
  cases step with
  | reach =>
      obtain ⟨-, -, -, rfl⟩ := fails_liftFault_iff.mp failed
      exact .refl _ _
  | directory =>
      have made := touchesOnly_makeDirs s.run.outputDir h
      rw [failed] at made
      exact made.mono (List.nil_subset _)
  | source =>
      obtain ⟨-, -, rfl⟩ := exists_fault_of_writeText failed
      exact .refl _ _
  | assemble =>
      have works := confined.assemble s.run.artifacts.source s.run.artifacts.object r.sourced
      rw [failed] at works
      exact works.files
  | disassemble =>
      have works := confined.disassemble s.run.artifacts.object r.assembled
      rw [failed.2] at works
      exact works.files
  | extract =>
      have works := confined.extract s.run.artifacts.object r.disassembled
      rw [failed] at works
      exact works.files
  | pairing =>
      obtain ⟨-, -, -, rfl⟩ := fails_liftFault_iff.mp failed
      exact .refl _ _
  | listing =>
      obtain ⟨-, -, rfl⟩ := exists_fault_of_writeText failed
      exact .refl _ _
  | fixture =>
      obtain ⟨-, -, rfl⟩ := exists_fault_of_writeText failed
      exact .refl _ _

theorem StopsAt.touches (confined : t.Confined) (stops : s.StopsAt c t e h r step err h') :
    TouchesOnly (step.touched s.run.artifacts ++
      [s.run.artifacts.object, s.run.artifacts.object.withExtension "bin"]) h h' :=
  (stops.reached.touches confined).followed (stops.failed.touches confined)
    (List.subset_append_left _ _) (List.subset_append_right _ _)

/-! ## What a run logs -/

/-- What is logged when a run gets to a step are the calls made before it. -/
theorem Reaches.logs (confined : t.Confined) (reached : s.Reaches c t.logged e h r step) :
    Logs (step.earlierCalls s.run) h (r.before h step) := by
  induction reached with
  | start => exact logs_nil rfl
  | reach earlier ends ih => exact ih
  | directory earlier ends ih =>
      have same := log_makeDirs s.run.outputDir h
      rw [ends] at same
      exact logs_nil same
  | source earlier ends ih => exact ih.append (logs_nil (log_writeText ends))
  | assemble earlier ends ih =>
      have call := confined.logs_assemble s.run.artifacts.source s.run.artifacts.object r.sourced
      rw [ends] at call
      exact ih.append call
  | disassemble earlier wanted kept ends ih =>
      have call := confined.logs_disassemble s.run.artifacts.object r.assembled
      rw [ends] at call
      rw [Step.earlierCalls, RunSettings.disassembleCalls, if_pos wanted]
      exact ih.append call
  | skip earlier unwanted kept same ih =>
      rw [Step.earlierCalls, RunSettings.disassembleCalls, unwanted]
      change Logs _ h r.disassembled
      rw [same]
      exact ih
  | extract earlier ends ih =>
      have call := confined.logs_extract s.run.artifacts.object r.disassembled
      rw [ends] at call
      exact ih.append call
  | pairing earlier ends ih => exact ih
  | listing earlier ends ih =>
      have calls := ih.append (logs_nil (log_writeText ends))
      rwa [List.append_nil] at calls

/-- What a step that fails logs is its own call, if it makes one. -/
theorem FailsAt.logs (confined : t.Confined) (failed : s.FailsAt c t.logged e h r err h' step) :
    Logs (step.ownCalls s.run) (r.before h step) h' := by
  cases step with
  | reach =>
      obtain ⟨-, -, -, rfl⟩ := fails_liftFault_iff.mp failed
      exact logs_nil rfl
  | directory =>
      have same := log_makeDirs s.run.outputDir h
      rw [failed] at same
      exact logs_nil same
  | source =>
      obtain ⟨-, -, rfl⟩ := exists_fault_of_writeText failed
      exact logs_nil rfl
  | assemble =>
      have call := confined.logs_assemble s.run.artifacts.source s.run.artifacts.object r.sourced
      rwa [failed] at call
  | disassemble =>
      have call := confined.logs_disassemble s.run.artifacts.object r.assembled
      rw [failed.2] at call
      rwa [Step.ownCalls, RunSettings.disassembleCalls, if_pos failed.1]
  | extract =>
      have call := confined.logs_extract s.run.artifacts.object r.disassembled
      rwa [failed] at call
  | pairing =>
      obtain ⟨-, -, -, rfl⟩ := fails_liftFault_iff.mp failed
      exact logs_nil rfl
  | listing =>
      obtain ⟨-, -, rfl⟩ := exists_fault_of_writeText failed
      exact logs_nil rfl
  | fixture =>
      obtain ⟨-, -, rfl⟩ := exists_fault_of_writeText failed
      exact logs_nil rfl

theorem StopsAt.logs (confined : t.Confined) (stops : s.StopsAt c t.logged e h r step err h') :
    Logs (step.earlierCalls s.run ++ step.ownCalls s.run) h h' :=
  (stops.reached.logs confined).append (stops.failed.logs confined)

/-! ## Labels out of reach -/

/-- A label out of reach is reported by the check of labels, unless a tool reports it. -/
theorem FailsAt.reach_or_usesTool {fault : Catalog.OutOfReach}
    (failed : s.FailsAt c t e h r (.reach fault) h' step) :
    step = .reach ∨ step.usesTool = true := by
  cases step with
  | reach => exact Or.inl rfl
  | assemble => exact Or.inr rfl
  | disassemble => exact Or.inr rfl
  | extract => exact Or.inr rfl
  | directory =>
      obtain ⟨_, wrong⟩ := exists_fault_of_makeDirs failed
      cases wrong
  | source =>
      obtain ⟨_, wrong, -⟩ := exists_fault_of_writeText failed
      cases wrong
  | listing =>
      obtain ⟨_, wrong, -⟩ := exists_fault_of_writeText failed
      cases wrong
  | fixture =>
      obtain ⟨_, wrong, -⟩ := exists_fault_of_writeText failed
      cases wrong
  | pairing =>
      obtain ⟨_, unpaired, rfl, -⟩ := fails_liftFault_iff.mp failed
      exact absurd unpaired (Fixture.ofCode_ne_reach e r.code fault)

theorem FailsAt.eq_of_reach (failed : s.FailsAt c t e h r err h' .reach) : h' = h := by
  obtain ⟨-, -, -, rfl⟩ := fails_liftFault_iff.mp failed
  rfl

theorem FailsAt.not_usesTool (leaves : t.LeavesLabels) {fault : Catalog.OutOfReach}
    (failed : s.FailsAt c t e h r (.reach fault) h' step) : step.usesTool = false := by
  cases step with
  | assemble => exact absurd failed (leaves.assemble _ _ _ _ _)
  | disassemble => exact absurd failed.2 (leaves.disassemble _ _ _ _)
  | extract => exact absurd failed (leaves.extract _ _ _ _)
  | reach => rfl
  | directory => rfl
  | source => rfl
  | pairing => rfl
  | listing => rfl
  | fixture => rfl

/-- From tools that never report labels, a label out of reach means that the labels were checked and
nothing else was done. -/
theorem StopsAt.of_leavesLabels (leaves : t.LeavesLabels) {fault : Catalog.OutOfReach}
    (stops : s.StopsAt c t e h r step (.reach fault) h') : step = .reach ∧ h' = h := by
  have other := stops.failed.not_usesTool leaves
  rcases stops.failed.reach_or_usesTool with rfl | tool
  · exact ⟨rfl, stops.failed.eq_of_reach⟩
  · rw [tool] at other
    cases other

/-! ## What a failed run spares -/

/-- What a run that stops at a step leaves as it was. -/
structure Spares (s : Settings) (h : Host) (step : Step) (h' : Host) : Prop where
  /-- The fixture is what it was. -/
  fixture : Keeps s.run.artifacts.fixture h h'
  /-- The listing is what it was, unless everything was done but writing the fixture. -/
  listing : step ≠ .fixture → Keeps s.run.artifacts.listing h h'
  /-- Where the labels are out of reach nothing was done at all. -/
  reach : step = .reach → h' = h

/-- The files of a run are distinct, as paths and on every host. -/
theorem apart_artifacts (s : Settings) (h : Host) :
    [s.run.artifacts.source, s.run.artifacts.object, s.run.artifacts.listing,
      s.run.artifacts.fixture].Pairwise fun p q => p ≠ q ∧ h.place p ≠ h.place q := by
  obtain ⟨source, object, text, json⟩ := isExtension_artifacts
  have apart : ∀ {a b : String}, IsExtension a → IsExtension b → a ≠ b →
      s.run.artifact a ≠ s.run.artifact b ∧
        h.place (s.run.artifact a) ≠ h.place (s.run.artifact b) := by
    intro a b ha hb differ
    have places := s.run.place_artifact_ne h ha hb differ
    exact ⟨fun same => places (congrArg h.place same), places⟩
  simp only [List.pairwise_cons, List.mem_cons, List.not_mem_nil, or_false, forall_eq_or_imp,
    forall_eq, false_implies, implies_true, List.Pairwise.nil, and_true]
  exact ⟨⟨apart source object (by decide), apart source text (by decide),
    apart source json (by decide)⟩, ⟨apart object text (by decide), apart object json (by decide)⟩,
    apart text json (by decide)⟩

/-- No step touches the fixture before it is written, nor do the tools. -/
theorem fixture_apart (s : Settings) (h : Host) (step : Step) :
    ∀ q ∈ step.touched s.run.artifacts ++
      [s.run.artifacts.object, s.run.artifacts.object.withExtension "bin"],
      h.place s.run.artifacts.fixture ≠ h.place q := by
  obtain ⟨source, object, text, json⟩ := isExtension_artifacts
  have fromSource : h.place s.run.artifacts.fixture ≠ h.place s.run.artifacts.source :=
    s.run.place_artifact_ne h json source (by decide)
  have fromObject : h.place s.run.artifacts.fixture ≠ h.place s.run.artifacts.object :=
    s.run.place_artifact_ne h json object (by decide)
  have fromListing : h.place s.run.artifacts.fixture ≠ h.place s.run.artifacts.listing :=
    s.run.place_artifact_ne h json text (by decide)
  have fromBinary : h.place s.run.artifacts.fixture ≠
      h.place (s.run.artifacts.object.withExtension "bin") :=
    s.run.place_binary_ne h json (by decide)
  cases step <;> simp [Step.touched, fromSource, fromObject, fromListing, fromBinary]

/-- Nothing but the step that writes it touches the listing. -/
theorem listing_apart (s : Settings) (h : Host) {step : Step} (early : step ≠ .fixture) :
    ∀ q ∈ step.touched s.run.artifacts ++
      [s.run.artifacts.object, s.run.artifacts.object.withExtension "bin"],
      h.place s.run.artifacts.listing ≠ h.place q := by
  obtain ⟨source, object, text, json⟩ := isExtension_artifacts
  have fromSource : h.place s.run.artifacts.listing ≠ h.place s.run.artifacts.source :=
    s.run.place_artifact_ne h text source (by decide)
  have fromObject : h.place s.run.artifacts.listing ≠ h.place s.run.artifacts.object :=
    s.run.place_artifact_ne h text object (by decide)
  have fromBinary : h.place s.run.artifacts.listing ≠
      h.place (s.run.artifacts.object.withExtension "bin") :=
    s.run.place_binary_ne h text (by decide)
  cases step with
  | fixture => exact absurd rfl early
  | _ => simp [Step.touched, fromSource, fromObject, fromBinary]

theorem StopsAt.spares (confined : t.Confined) (stops : s.StopsAt c t e h r step err h') :
    s.Spares h step h' where
  fixture := by
    obtain ⟨source, -, -, json⟩ := isExtension_artifacts
    obtain ⟨-, -, slash, text⟩ := s.run.siblings_artifact source json (by decide)
    exact (stops.touches confined).keeps text slash (s.fixture_apart h step)
  listing := by
    intro early
    obtain ⟨source, -, listing, -⟩ := isExtension_artifacts
    obtain ⟨-, -, slash, text⟩ := s.run.siblings_artifact source listing (by decide)
    exact (stops.touches confined).keeps text slash (s.listing_apart h early)
  reach := by
    rintro rfl
    exact stops.failed.eq_of_reach

end Settings

/-! ## The main statement -/

/-- A run whose disassembly is not asked for never calls the disassembler: with any other in its place
the run is the same. -/
theorem run_without_disassembler {s : Settings} (unwanted : s.run.includeDisassembly = false)
    (c : Catalog) (t : Toolchain) (fresh : UInt64) (other : Path → HostM String) :
    run s c { t with disassemble := other } fresh = run s c t fresh := by
  have same : Toolchain.process { t with disassemble := other } s.run = t.process s.run := by
    simp only [Toolchain.process, unwanted, Bool.false_eq_true, if_false]
  rw [run, run, same]

/-- A run that fails writes no fixture. It stops at its first error: the steps before it ended well, the
fixture is what it was, and so is the listing unless only writing the fixture failed. The tools that
were called are those up to the step that failed, in order and each once. If the error is a label out
of reach, the labels were checked and nothing else was done, as long as the tools never report one. -/
theorem failed_run_spares {t : Toolchain} (confined : t.Confined) (s : Settings) (c : Catalog)
    (fresh : UInt64) (h : Host) :
    (∀ err h', Fails (run s c t fresh) h err h' →
      ∃ r step, s.StopsAt c t (s.emit fresh c) h r step err h' ∧ s.Spares h step h' ∧
        (t.LeavesLabels → ∀ fault, err = .reach fault → step = .reach ∧ h' = h)) ∧
    (∀ err h', Fails (run s c t.logged fresh) h err h' →
      ∃ r step, s.StopsAt c t.logged (s.emit fresh c) h r step err h' ∧ s.Spares h step h' ∧
        Logs (step.earlierCalls s.run ++ step.ownCalls s.run) h h' ∧
        (t.LeavesLabels → ∀ fault, err = .reach fault → step = .reach ∧ h' = h)) ∧
    (s.run.includeDisassembly = false → ∀ other,
      run s c { t with disassemble := other } fresh = run s c t fresh) ∧
    [s.run.artifacts.source, s.run.artifacts.object, s.run.artifacts.listing,
      s.run.artifacts.fixture].Pairwise fun p q => p ≠ q ∧ h.place p ≠ h.place q := by
  refine ⟨?_, ?_, ?_, s.apart_artifacts h⟩
  · intro err h' fails
    obtain ⟨r, step, stops⟩ := exists_stop fails
    refine ⟨r, step, stops, stops.spares confined, ?_⟩
    rintro leaves fault rfl
    exact stops.of_leavesLabels leaves
  · intro err h' fails
    obtain ⟨r, step, stops⟩ := exists_stop fails
    refine ⟨r, step, stops, stops.spares confined.logged, stops.logs confined, ?_⟩
    rintro leaves fault rfl
    exact stops.of_leavesLabels leaves.logged
  · intro unwanted other
    exact run_without_disassembler unwanted c t fresh other

/-- Tools that give back three words, the last of which is no jump. -/
def mismatchedRecording : Recording :=
  { object := some [0x7f]
    code := some [0x6f, 0, 0, 0, 0x6f, 0, 0x80, 0, 0x13, 0, 0, 0] }

/-- A disk with the fixture and the listing of an earlier run. -/
def earlierRun : Host :=
  { disk := ⟨[(["out"], .directory), (["out", "jumps.json"], .file [0x7b, 0x7d]),
      (["out", "jumps.txt"], .file [0x2f, 0x2f])]⟩ }

/-- Settings for one more branch than reach the label after them. -/
def farSettings : Settings :=
  { jumpSettings with run := { jumpSettings.run with instances := 342 } }

/-- Three programs that cannot be found. -/
def missingPrograms : Binutils :=
  ⟨⟨"as"⟩, none, none, "rv64g", "lp64", false, .elf⟩

/-- The forms of a jump do not agree, so the run fails after all three tools were called. -/
theorem exists_fails_mismatched :
    ∃ h', Fails (run jumpSettings jumpCatalog mismatchedRecording.toolchain.logged 0) earlierRun
        (.fixture (.forms "j" [0x6f, 0x80006f, 0x13])) h' ∧
      h'.log = [["assemble", "out/jumps.s", "out/jumps.o"], ["disassemble", "out/jumps.o"],
        ["extract", "out/jumps.o"]] :=
  ⟨_, fails_of_outcome (by decide +kernel), by decide +kernel⟩

/-- With one branch too many the run fails; the programs are not even looked for. -/
theorem exists_fails_far :
    ∃ h', Fails (run farSettings Generator.branchCatalog missingPrograms.toolchain.logged 0)
      earlierRun (.reach ⟨⟨"b", 4100, ⟨-4096, 4094⟩⟩, 341⟩) h' :=
  ⟨_, fails_of_outcome (by decide +kernel)⟩

/-- Control: the fixture and the listing of an earlier run are still there after a run that stops at
words that do not agree, and a run with one branch too many leaves everything as it was. -/
theorem mismatched_run_spares :
    mismatchedRecording.toolchain.Confined ∧
      (∃ h', Fails (run jumpSettings jumpCatalog mismatchedRecording.toolchain.logged 0) earlierRun
          (.fixture (.forms "j" [0x6f, 0x80006f, 0x13])) h' ∧
        h'.contentOf jumpSettings.run.artifacts.fixture = .ok [0x7b, 0x7d] ∧
        h'.contentOf jumpSettings.run.artifacts.listing = .ok [0x2f, 0x2f] ∧
        h'.log = [["assemble", "out/jumps.s", "out/jumps.o"], ["disassemble", "out/jumps.o"],
          ["extract", "out/jumps.o"]]) ∧
      missingPrograms.toolchain.Confined ∧ missingPrograms.toolchain.LeavesLabels ∧
      Fails (run farSettings Generator.branchCatalog missingPrograms.toolchain.logged 0) earlierRun
        (.reach ⟨⟨"b", 4100, ⟨-4096, 4094⟩⟩, 341⟩) earlierRun := by
  have confined := mismatchedRecording.confined
  have fixture : earlierRun.contentOf jumpSettings.run.artifacts.fixture = .ok [0x7b, 0x7d] := by
    decide +kernel
  have listing : earlierRun.contentOf jumpSettings.run.artifacts.listing = .ok [0x2f, 0x2f] := by
    decide +kernel
  obtain ⟨h', fails, log⟩ := exists_fails_mismatched
  obtain ⟨r, step, stops, spares, -⟩ :=
    (failed_run_spares confined jumpSettings jumpCatalog 0 earlierRun).2.1 _ _ fails
  have early : step ≠ .fixture := by
    rintro rfl
    obtain ⟨_, wrong, -⟩ := exists_fault_of_writeText stops.failed
    cases wrong
  have missing := missingPrograms.confined
  have leaves := missingPrograms.leavesLabels
  obtain ⟨_, stopped⟩ := exists_fails_far
  obtain ⟨_, _, -, -, -, reach⟩ :=
    (failed_run_spares missing farSettings Generator.branchCatalog 0 earlierRun).2.1 _ _ stopped
  rw [(reach leaves _ rfl).2] at stopped
  exact ⟨confined, ⟨h', fails, spares.fixture.content _ fixture,
    (spares.listing early).content _ listing, log⟩, missing, leaves, stopped⟩

/-- Tools whose assembler writes an object and then reports a label out of reach. -/
def alarmedTools : Toolchain :=
  { jumpTools with
    assemble := fun _ object => do
      writeFile object [0x7f]
      throw (.reach ⟨⟨"j", 0, ⟨0, 0⟩⟩, 0⟩) }

theorem alarmedTools_confined : alarmedTools.Confined where
  assemble := by
    intro source object
    exact (keepsTo_writeFile [0x7f]).bind fun _ => keepsTo_throw _
  disassemble := jumpRecording.confined.disassemble
  extract := jumpRecording.confined.extract

/-- Tools without an assembler. -/
def noAssembler : Toolchain :=
  Recording.toolchain { assembleError := some (.toolMissing "as") }

/-- Settings for a directory that is named by way of another one. -/
def roundaboutSettings : Settings :=
  { run := { jumpSettings.run with outputDir := ⟨"x/.."⟩ } }

/-- A disk with the fixture of an earlier run, and no other directory. -/
def lonelyFixture : Host :=
  { disk := ⟨[(["jumps.json"], .file [0x7b, 0x7d])]⟩ }

/-- Control: what is not promised of a run that fails. A label out of reach is reported after tools
were called and an object was written, though the tools keep to the object. And the path of the
fixture, which led nowhere, leads to a file, though the file is what it was. -/
theorem failed_run_disturbs :
    (alarmedTools.Confined ∧
      ∃ fault h', Fails (run jumpSettings jumpCatalog alarmedTools.logged 0) {} (.reach fault) h' ∧
        h'.contentOf jumpSettings.run.artifacts.object = .ok [0x7f] ∧
        h'.log = [["assemble", "out/jumps.s", "out/jumps.o"]]) ∧
    (noAssembler.Confined ∧
      lonelyFixture.contentOf roundaboutSettings.run.artifacts.fixture = .error .notFound ∧
      ∃ h', Fails (run roundaboutSettings jumpCatalog noAssembler 0)
          lonelyFixture (.toolMissing "as") h' ∧
        h'.contentOf roundaboutSettings.run.artifacts.fixture = .ok [0x7b, 0x7d]) := by
  have alarm : (outcome (run jumpSettings jumpCatalog alarmedTools.logged 0) {}).1 =
      .error (.reach ⟨⟨"j", 0, ⟨0, 0⟩⟩, 0⟩) := by decide +kernel
  have object : (outcome (run jumpSettings jumpCatalog alarmedTools.logged 0) {}).2.contentOf
      jumpSettings.run.artifacts.object = .ok [0x7f] := by decide +kernel
  have log : (outcome (run jumpSettings jumpCatalog alarmedTools.logged 0) {}).2.log =
      [["assemble", "out/jumps.s", "out/jumps.o"]] := by decide +kernel
  have missing : (outcome (run roundaboutSettings jumpCatalog noAssembler 0)
      lonelyFixture).1 = .error (.toolMissing "as") := by decide +kernel
  have before : lonelyFixture.contentOf roundaboutSettings.run.artifacts.fixture =
      .error .notFound := by decide +kernel
  have after : (outcome (run roundaboutSettings jumpCatalog noAssembler 0)
      lonelyFixture).2.contentOf roundaboutSettings.run.artifacts.fixture = .ok [0x7b, 0x7d] := by
    decide +kernel
  exact ⟨⟨alarmedTools_confined, _, _, fails_of_outcome alarm, object, log⟩,
    Recording.confined _, before, _, fails_of_outcome missing, after⟩

end EncoderVectors
