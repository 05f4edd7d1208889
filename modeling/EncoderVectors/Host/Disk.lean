import EncoderVectors.Host.Path
import EncoderVectors.Host.Program

/-!
# Disks

A disk holds files, directories and programs, each at a location: the names that lead to it from the
root. A path is followed name by name, and every place on the way must be a directory. A location
tells apart what texts of paths may not: `a`, `./a` and `b/../a` lead to the same one.
-/

set_option autoImplicit false

namespace EncoderVectors

/-- The names that lead from the root to a place. -/
abbrev Location := List String

/-- What is at a place. -/
inductive Node where
  /-- A file with its content. -/
  | file (content : List UInt8)
  /-- A directory. -/
  | directory
  /-- A file that can be run. -/
  | program (program : Program)
  deriving DecidableEq, Repr

/-- Everything that is stored. -/
structure Disk where
  /-- What is where; the root itself is not listed. -/
  entries : List (Location × Node)
  deriving DecidableEq, Repr

namespace Disk

/-- Why an operation on a disk fails. -/
inductive Fault where
  /-- There is nothing there. -/
  | notFound
  /-- There is something there already. -/
  | exists
  /-- A place on the way is no directory. -/
  | notDirectory
  /-- The place is a directory. -/
  | isDirectory
  /-- The content is no text. -/
  | notText
  deriving DecidableEq, Repr

/-- The wording of a fault. -/
def Fault.message : Fault → String
  | .notFound => "No such file or directory (os error 2)"
  | .exists => "File exists (os error 17)"
  | .notDirectory => "Not a directory (os error 20)"
  | .isDirectory => "Is a directory (os error 21)"
  | .notText => "stream did not contain valid UTF-8"

/-- A disk with nothing on it. -/
def empty : Disk := ⟨[]⟩

/-- What is at a location; the root is a directory. -/
def find? (d : Disk) (location : Location) : Option Node :=
  if location = [] then some .directory else d.entries.lookup location

/-- The disk with a node put at a location, in place of what was there. -/
def put (d : Disk) (location : Location) (node : Node) : Disk :=
  ⟨(location, node) :: d.entries.filter fun entry => entry.1 ≠ location⟩

/-- Dropping one location from a list of entries leaves the others alone. -/
theorem lookup_filter_ne {location other : Location} (h : other ≠ location)
    (entries : List (Location × Node)) :
    (entries.filter fun entry => entry.1 ≠ location).lookup other = entries.lookup other := by
  induction entries with
  | nil => rfl
  | cons entry rest ih =>
      obtain ⟨key, node⟩ := entry
      by_cases same : key = location
      · have missed : (other == key) = false := by simpa [same] using h
        rw [List.filter_cons_of_neg (by simpa using same), ih, List.lookup_cons, missed]
      · rw [List.filter_cons_of_pos (by simpa using same), List.lookup_cons, List.lookup_cons, ih]

/-- What is put at a location is found there. -/
theorem find?_put_self (d : Disk) {location : Location} (node : Node) (h : location ≠ []) :
    (d.put location node).find? location = some node := by
  simp [find?, put, h]

/-- What is put at one location leaves the others alone. -/
theorem find?_put_of_ne (d : Disk) {location other : Location} (node : Node)
    (h : other ≠ location) : (d.put location node).find? other = d.find? other := by
  have distinct : (other == location) = false := by simpa using h
  unfold find? put
  rw [List.lookup_cons, distinct, lookup_filter_ne h]

/-! ## Following paths -/

/-- Where a walk along `names` leads. Every place that a step starts from must be a directory; what is
at the end, if anything, is not looked at. -/
def walk (d : Disk) : Location → List String → Except Fault Location
  | here, [] => .ok here
  | here, name :: rest =>
      match d.find? here with
      | none => .error .notFound
      | some .directory =>
          if name = "." then d.walk here rest
          else if name = ".." then d.walk here.dropLast rest
          else d.walk (here ++ [name]) rest
      | some _ => .error .notDirectory

/-- Where a path starts from, seen from the directory `here`. -/
def start (here : Location) (p : Path) : Location :=
  if p.isAbsolute then [] else here

/-- The location of a path, seen from the directory `here`. A path that ends in a slash must lead to a
directory. -/
def locate (d : Disk) (here : Location) (p : Path) : Except Fault Location :=
  if p.text.isEmpty then .error .notFound
  else d.walk (start here p) (p.names ++ if p.endsInSlash then ["."] else [])

/-- What a path leads to. -/
def resolve (d : Disk) (here : Location) (p : Path) : Except Fault Node :=
  match d.locate here p with
  | .error e => .error e
  | .ok location =>
      match d.find? location with
      | none => .error .notFound
      | some node => .ok node

/-! ## Files -/

/-- The content of a file. What a program consists of is left open. -/
def read (d : Disk) (here : Location) (p : Path) : Except Fault (List UInt8) :=
  match d.resolve here p with
  | .error e => .error e
  | .ok .directory => .error .isDirectory
  | .ok (.file content) => .ok content
  | .ok (.program _) => .ok []

/-- The disk with a file written. The directory it goes into must exist; a file that is there already
is replaced. A path that ends in a slash names no file. -/
def write (d : Disk) (here : Location) (p : Path) (content : List UInt8) : Except Fault Disk :=
  if p.text.isEmpty then .error .notFound
  else
    match d.walk (start here p) p.names with
    | .error e => .error e
    | .ok location =>
        if p.endsInSlash || d.find? location = some .directory then .error .isDirectory
        else .ok (d.put location (.file content))

/-! ## Directories -/

/-- A walk along `names` leads to a directory. -/
def isDirectory (d : Disk) (here : Location) (names : List String) : Bool :=
  match d.walk here names with
  | .ok location => d.find? location = some .directory
  | .error _ => false

/-- The disk with a directory made where a walk along `names` leads. -/
def makeDir (d : Disk) (here : Location) (names : List String) : Except Fault Disk :=
  match d.walk here names with
  | .error e => .error e
  | .ok location =>
      if (d.find? location).isSome then .error .exists else .ok (d.put location .directory)

/-- Makes a directory; there may be one already. -/
def settleDir (d : Disk) (here : Location) (names : List String) : Except Fault Disk :=
  match d.makeDir here names with
  | .ok made => .ok made
  | .error e => if d.isDirectory here names then .ok d else .error e

/-- Keeps the disk as it was before a step that failed. -/
def attempt (d : Disk) : Except Fault Disk → Except Fault Unit × Disk
  | .ok next => (.ok (), next)
  | .error e => (.error e, d)

/-- Makes a directory, and if there is no place for it yet, first what it lies in. -/
def makeDirAfter (d : Disk) (here : Location) (names : List String)
    (makeParent : Disk → Except Fault Unit × Disk) : Except Fault Unit × Disk :=
  match d.makeDir here names with
  | .error .notFound =>
      match makeParent d with
      | (.error e, next) => (.error e, next)
      | (.ok (), next) => next.attempt (next.settleDir here names)
  | _ => d.attempt (d.settleDir here names)

/-- Makes the directory whose names are given, the last one first, and all that it lies in. -/
def makeParents (here : Location) : List String → Disk → Except Fault Unit × Disk
  | [], d => (.ok (), d)
  | name :: before, d =>
      d.makeDirAfter here (name :: before).reverse (makeParents here before)

/-- Makes the directory of a path and all that it lies in. Directories made on the way stay when a
later step fails. -/
def makeDirs (d : Disk) (here : Location) (p : Path) : Except Fault Unit × Disk :=
  let parents := (p.names.filter (· ≠ ".")).dropLast.reverse
  if p.text.isEmpty then (.ok (), d)
  else d.makeDirAfter (start here p) p.names (makeParents (start here p) parents)

/-- The disk with a node put where a path leads, in directories that are made as needed. -/
def plant (d : Disk) (here : Location) (p : Path) (node : Node) : Disk :=
  let parents := (p.names.filter (· ≠ ".")).dropLast.reverse
  let made := (makeParents (start here p) parents d).2
  match made.walk (start here p) p.names with
  | .ok location => made.put location node
  | .error _ => made

end Disk

end EncoderVectors
