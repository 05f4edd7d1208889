/-!
# Paths

A path is a text. It is taken apart only where a rule asks for it, so that it is printed as it was
given: nothing is normalized.
-/

set_option autoImplicit false

namespace EncoderVectors

/-- A path in the file system. -/
structure Path where
  /-- The path as it is written. -/
  text : String
  deriving DecidableEq, Repr

namespace Path

/-- The path starts at the root. -/
def isAbsolute (p : Path) : Bool :=
  p.text.toList.head? == some '/'

/-- The path has a slash somewhere. -/
def hasSlash (p : Path) : Bool :=
  p.text.toList.contains '/'

/-- The path ends in a slash. -/
def endsInSlash (p : Path) : Bool :=
  p.text.toList.getLast? == some '/'

/-- A path seen from a directory. An absolute path stays as it is; otherwise a slash goes between the
two, unless the first is empty or already ends in one. -/
def join (directory path : Path) : Path :=
  if path.isAbsolute then path
  else if directory.text.isEmpty || directory.endsInSlash then ⟨directory.text ++ path.text⟩
  else ⟨directory.text ++ "/" ++ path.text⟩

/-- The pieces between slashes, empty ones included. -/
def pieces (p : Path) : List String :=
  (p.text.toList.splitOn '/').map String.ofList

/-- The names on the way to the file, without empty pieces. -/
def names (p : Path) : List String :=
  p.pieces.filter fun piece => !piece.isEmpty

/-- A file name without its extension. The extension starts at the last dot, and a dot at the very
start does not count. -/
def stem (name : String) : String :=
  match (name.toList.reverse.dropWhile (· ≠ '.')).drop 1 with
  | [] => name
  | before => String.ofList before.reverse

/-- The path ends in a name of two dots and an extension, such as `..o`, with nothing after it. -/
def endsInDottedExtension (p : Path) : Bool :=
  match p.pieces.getLast? with
  | some last => last != "." && last != ".." && stem last == "."
  | none => false

/-- The path with the extension of its last name replaced, or added if there was none. A path whose
last name is `..`, or that has no name at all, stays as it is. Without its extension, a name at the
very end that is two dots and an extension is `..`, which takes no new one; whatever trails after a
name is dropped with the old extension. -/
def withExtension (p : Path) (extension : String) : Path :=
  match p.pieces.reverse.dropWhile fun piece => piece.isEmpty || piece == "." with
  | [] => p
  | last :: before =>
      if last = ".." then p
      else if p.endsInDottedExtension then ⟨String.intercalate "/" (before.reverse ++ [".."])⟩
      else ⟨String.intercalate "/" (before.reverse ++ [stem last ++ "." ++ extension])⟩

end Path

end EncoderVectors
