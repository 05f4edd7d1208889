import EncoderVectors.Catalog.Select
import EncoderVectors.Emission.Generate
import EncoderVectors.Emission.Listing
import EncoderVectors.Emission.Source
import EncoderVectors.Fixture.Json
import EncoderVectors.Settings.Basic
import EncoderVectors.Toolchain.Basic
import EncoderVectors.Word.Bytes

/-!
# Runs

A run is strictly sequential: check that all labels are reached, emit, write the source, assemble it,
take the code back out, pair the words with the instructions and check the forms, then write the
listing and the fixture. The first error ends it. Listing and fixture are written only after every
check has passed.
-/

set_option autoImplicit false

namespace EncoderVectors

namespace Settings

/-- The catalog restricted to the families that are set. -/
def catalog (s : Settings) : Except Error Catalog :=
  match Catalog.select s.run.families with
  | .ok c => .ok c
  | .error name => .error (.family name)

/-- The emission for a catalog; `fresh` is the seed to use if none is set. -/
def emit (s : Settings) (fresh : UInt64) (c : Catalog) : Emission :=
  ((Generator.ofSeed (s.run.seed.getD fresh)).emit s.style s.run.instances c).1

end Settings

/-- Has the source assembled; yields the disassembly, if it is wanted, and the code. -/
def Toolchain.process (t : Toolchain) (s : RunSettings) :
    HostM (Option String × List UInt8) := do
  t.assemble s.artifacts.source s.artifacts.object
  let disassembly ←
    if s.includeDisassembly then some <$> t.disassemble s.artifacts.object else pure none
  return (disassembly, ← t.extract s.artifacts.object)

/-- Pairs an emission with code. -/
def Fixture.ofCode (e : Emission) (code : List UInt8) : Except Error Fixture :=
  match Word.ofCode code with
  | .error length => .error (.misaligned length)
  | .ok words =>
      match Fixture.pair e words with
      | .error fault => .error (.fixture fault)
      | .ok fixture => .ok fixture

/-- Runs everything, and yields the fixture that was written; `fresh` is the seed to use if none is
set. -/
def run (s : Settings) (c : Catalog) (t : Toolchain) (fresh : UInt64) : HostM Fixture := do
  Host.liftFault .reach (c.checkReach s.run.instances)
  let emission := s.emit fresh c
  let files := s.run.artifacts
  Host.makeDirs s.run.outputDir
  Host.writeText files.source emission.source
  let (disassembly, code) ← t.process s.run
  let fixture ← Host.liftFault id (Fixture.ofCode emission code)
  Host.writeText files.listing (emission.listing s.style fixture.words disassembly)
  Host.writeText files.fixture fixture.toJson
  return fixture

end EncoderVectors
