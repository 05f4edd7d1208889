import EncoderVectors.Error

/-!
# Hosts

What a run has around it: a disk, a working directory, the directories that programs are looked up in,
and a log of what was called. An action on a host changes it and yields a value, or stops with an
error; what was changed before stays changed.
-/

set_option autoImplicit false

namespace EncoderVectors

/-- The surroundings of a run. -/
structure Host where
  /-- Everything that is stored. -/
  disk : Disk := .empty
  /-- The working directory. -/
  directory : Location := []
  /-- The directories that programs are looked up in. -/
  searchPath : List Path := []
  /-- What was called, with its arguments, in order. -/
  log : List (List String) := []
  deriving DecidableEq, Repr

/-- An action on a host. -/
abbrev HostM := ExceptT Error (StateM Host)

namespace Host

/-- A result, or the error that a fault stands for. -/
def liftFault {ε α : Type} (error : ε → Error) : Except ε α → HostM α
  | .ok a => return a
  | .error fault => throw (error fault)

/-- Adds a line to the log. -/
def note (line : List String) : HostM Unit :=
  modify fun h => { h with log := h.log ++ [line] }

/-! ## Files -/

/-- The content of a file. -/
def readFile (p : Path) : HostM (List UInt8) := do
  let h ← get
  liftFault .disk (h.disk.read h.directory p)

/-- The text in a file. -/
def readText (p : Path) : HostM String := do
  match Text.ofUtf8? (← readFile p) with
  | some text => return text
  | none => throw (.disk .notText)

/-- Writes a file. -/
def writeFile (p : Path) (content : List UInt8) : HostM Unit := do
  let h ← get
  let disk ← liftFault .disk (h.disk.write h.directory p content)
  set { h with disk := disk }

/-- Writes a text to a file. -/
def writeText (p : Path) (text : String) : HostM Unit :=
  writeFile p (Text.utf8 text)

/-- Makes a directory and all that it lies in. -/
def makeDirs (p : Path) : HostM Unit := do
  let h ← get
  let (result, disk) := h.disk.makeDirs h.directory p
  set { h with disk := disk }
  liftFault .disk result

/-! ## Programs -/

/-- The path of a location. -/
def pathOf (location : Location) : Path :=
  ⟨"/" ++ String.intercalate "/" location⟩

/-- The program at a path. -/
def program? (h : Host) (p : Path) : Option Program :=
  match h.disk.resolve h.directory p with
  | .ok (.program program) => some program
  | _ => none

/-- The paths that a name may stand for: a name with a slash is a path itself, seen from the working
directory; any other is looked up in the search path. -/
def candidates (h : Host) (name : Path) : List Path :=
  if name.hasSlash then [(pathOf h.directory).join name]
  else h.searchPath.map fun directory => directory.join name

/-- The full path of a program. -/
def which? (h : Host) (name : Path) : Option Path :=
  (h.candidates name).find? fun p => (h.program? p).isSome

/-- Writes what a program makes to the file named by its last argument. That this may fail is the
program's own concern. -/
def deliver (program : Program) (args : List String) : HostM Unit :=
  modify fun h =>
    match program.product, args.getLast? with
    | some content, some target =>
        match h.disk.write h.directory ⟨target⟩ content with
        | .ok disk => { h with disk := disk }
        | .error _ => h
    | _, _ => h

/-- Runs a program, and yields what it prints. It must end well. -/
def runProgram (tool : Path) (args : List String) : HostM (List UInt8) := do
  match (← get).program? tool with
  | none => throw (.toolMissing tool.text)
  | some program =>
      if !program.startable then throw (.toolMissing tool.text)
      note (program.name :: args)
      deliver program args
      if !program.ending.isSuccess then
        throw (.toolFailed tool.text program.ending (Text.ofUtf8Lenient program.complaint))
      return program.output

end Host

end EncoderVectors
