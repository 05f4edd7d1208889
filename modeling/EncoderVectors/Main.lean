import EncoderVectors.CommandLine.Report

/-!
# The program

Reads the file with the settings, if one is named, carries out the command line and prints what comes
of it.
-/

set_option autoImplicit false

namespace EncoderVectors

/-- What is at a path, if it can be read. -/
def fetch (p : Path) : IO (Option Node) := do
  try
    let content ← IO.FS.readBinFile p.text
    return some (.file content.toList)
  catch
    | .inappropriateType .. => return some .directory
    | _ => return none

/-- A host that has the file with the settings. -/
def hostFor (arguments : List String) : IO Host := do
  match CommandLine.parse arguments with
  | .ok (_, flags) =>
      match flags.settings with
      | some path =>
          match ← fetch path with
          | some node => return { disk := Disk.empty.plant [] path node }
          | none => return {}
      | none => return {}
  | .error _ => return {}

/-- A seed that nobody chose. -/
def freshSeed : IO UInt64 := do
  let bytes ← IO.getRandomBytes 8
  return bytes.toList.foldl (fun seed b => seed * 256 + b.toUInt64) 0

end EncoderVectors

/-- Carries out the command line. -/
def main (arguments : List String) : IO UInt32 := do
  let host ← EncoderVectors.hostFor arguments
  let seed ← EncoderVectors.freshSeed
  let (report, _) := (EncoderVectors.CommandLine.execute seed arguments).run host
  IO.print report.output
  IO.eprint report.complaint
  return UInt32.ofNat report.exitCode
