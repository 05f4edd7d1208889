import EncoderVectors.Elf.Number
import EncoderVectors.Text.Utf8

/-!
# Writing object files

The least object file that holds code: a 64-bit file with the least byte first, whose only sections
are the code and the names of sections. The code stands right behind the file header, the names behind
the code, and the section headers at the next multiple of eight.
-/

set_option autoImplicit false

namespace EncoderVectors.Elf

/-- The bytes that tell what the file is: a 64-bit file, the least byte first, version one. -/
def objectIdent : List UInt8 :=
  [0x7F, 0x45, 0x4C, 0x46, 2, 1, 1, 0] ++ List.replicate 8 0

/-- The file header of an object for 64-bit RISC-V whose three section headers start at `start`; the
last one is that of the names. -/
def objectHeader (start : Nat) : List UInt8 :=
  objectIdent ++ bytesOf 2 1 ++ bytesOf 2 243 ++ bytesOf 4 1 ++ bytesOf 8 0 ++ bytesOf 8 0 ++
    bytesOf 8 start ++ bytesOf 4 0 ++ bytesOf 2 64 ++ bytesOf 2 0 ++ bytesOf 2 0 ++ bytesOf 2 64 ++
    bytesOf 2 3 ++ bytesOf 2 2

/-- A section header without an address, links or entries. -/
def objectSection (name kind flags start size alignment : Nat) : List UInt8 :=
  bytesOf 4 name ++ bytesOf 4 kind ++ bytesOf 8 flags ++ bytesOf 8 0 ++ bytesOf 8 start ++
    bytesOf 8 size ++ bytesOf 4 0 ++ bytesOf 4 0 ++ bytesOf 8 alignment ++ bytesOf 8 0

/-- The names of sections: the empty one, that of the code section, and that of the names. -/
def objectNames (name : String) : List UInt8 :=
  [0] ++ Text.utf8 name ++ [0] ++ Text.utf8 ".shstrtab" ++ [0]

/-- The least multiple of eight that is not below `n`. -/
def roundUp8 (n : Nat) : Nat :=
  (n + 7) / 8 * 8

/-- An object file with one section of the given name that holds the given code. -/
def object (name : String) (code : List UInt8) : Image :=
  let names := objectNames name
  let namesStart := 64 + code.length
  let namesStop := namesStart + names.length
  let start := roundUp8 namesStop
  objectHeader start ++ code ++ names ++ List.replicate (start - namesStop) 0 ++
    List.replicate 64 0 ++
    objectSection 1 1 6 64 code.length 4 ++
    objectSection (2 + (Text.utf8 name).length) 3 0 namesStart names.length 1

end EncoderVectors.Elf
