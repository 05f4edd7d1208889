import EncoderVectors.Elf.Number

/-!
# The formats of object files

An object file starts with a header that says where its tables are: the program headers, the section
headers, and among the sections the one that holds their names. Files come in two widths, whose
headers hold the same fields at different places, and in two byte orders.
-/

set_option autoImplicit false

namespace EncoderVectors.Elf

/-- The width of addresses and offsets. -/
inductive Width where
  /-- Four bytes. -/
  | bits32
  /-- Eight bytes. -/
  | bits64
  deriving DecidableEq, Repr

/-- How the numbers of a file are stored. -/
structure Format where
  /-- The width of addresses and offsets. -/
  width : Width
  /-- The order of bytes. -/
  order : ByteOrder
  deriving DecidableEq, Repr

namespace Width

/-- The size of the file header. -/
def headerSize : Width → Nat
  | .bits32 => 52
  | .bits64 => 64

/-- The size of a program header. -/
def programSize : Width → Nat
  | .bits32 => 32
  | .bits64 => 56

/-- The size of a section header. -/
def sectionSize : Width → Nat
  | .bits32 => 40
  | .bits64 => 64

/-- The size of a symbol. -/
def symbolSize : Width → Nat
  | .bits32 => 16
  | .bits64 => 24

/-- What the offsets of all tables are multiples of. -/
def alignment : Width → Nat
  | .bits32 => 4
  | .bits64 => 8

end Width

/-- Where a number stands in a header. -/
structure Place where
  /-- The offset of its first byte. -/
  start : Nat
  /-- Its width in bytes. -/
  size : Nat
  deriving DecidableEq, Repr

/-- The number at a place. -/
def Place.read (p : Place) (order : ByteOrder) (bytes : List UInt8) : Nat :=
  order.number ((bytes.drop p.start).take p.size)

/-- A table of headers, as the file header describes it. -/
structure Table where
  /-- The offset of the table; zero if there is none. -/
  start : Nat
  /-- The size of an entry. -/
  entrySize : Nat
  /-- The number of entries. -/
  count : Nat
  deriving DecidableEq, Repr

/-- The file header. -/
structure Header where
  /-- How the numbers of the file are stored. -/
  format : Format
  /-- The program headers. -/
  programs : Table
  /-- The section headers. -/
  sections : Table
  /-- The index of the section that holds the names of sections. -/
  namesIndex : Nat
  deriving DecidableEq, Repr

/-- The file header in the bytes of a file. -/
def Header.ofBytes (format : Format) (bytes : List UInt8) : Header :=
  let number := fun start size => Place.read ⟨start, size⟩ format.order bytes
  match format.width with
  | .bits32 =>
      ⟨format, ⟨number 28 4, number 42 2, number 44 2⟩, ⟨number 32 4, number 46 2, number 48 2⟩, number 50 2⟩
  | .bits64 =>
      ⟨format, ⟨number 32 8, number 54 2, number 56 2⟩, ⟨number 40 8, number 58 2, number 60 2⟩, number 62 2⟩

/-- What a section holds, as far as it matters here. -/
inductive SectionKind where
  /-- Symbols. -/
  | symbols
  /-- Texts, each ended by a zero byte. -/
  | strings
  /-- Relocations with addends. -/
  | addendRelocations
  /-- Nothing that is stored in the file. -/
  | noBits
  /-- Relocations. -/
  | relocations
  /-- Symbols for the dynamic linker. -/
  | dynamicSymbols
  /-- Section indices of symbols that are too great for the symbol itself. -/
  | wideIndices
  /-- Anything else. -/
  | other (code : Nat)
  deriving DecidableEq, Repr

namespace SectionKind

/-- The kind with that code. -/
def ofCode : Nat → SectionKind
  | 2 => .symbols
  | 3 => .strings
  | 4 => .addendRelocations
  | 8 => .noBits
  | 9 => .relocations
  | 11 => .dynamicSymbols
  | 18 => .wideIndices
  | code => .other code

/-- The section holds relocations. -/
def isRelocation (kind : SectionKind) : Bool :=
  kind = .addendRelocations || kind = .relocations

end SectionKind

/-- A section header. -/
structure SectionHeader where
  /-- Where the name starts in the section of names. -/
  name : Nat
  /-- What the section holds. -/
  kind : SectionKind
  /-- The offset of its content. -/
  start : Nat
  /-- The size of its content. -/
  size : Nat
  /-- The index of a section it belongs with. -/
  link : Nat
  /-- More about it, depending on its kind. -/
  info : Nat
  deriving DecidableEq, Repr

/-- The section header in its bytes. -/
def SectionHeader.ofBytes (format : Format) (bytes : List UInt8) : SectionHeader :=
  let number := fun start size => Place.read ⟨start, size⟩ format.order bytes
  match format.width with
  | .bits32 => ⟨number 0 4, .ofCode (number 4 4), number 16 4, number 20 4, number 24 4, number 28 4⟩
  | .bits64 => ⟨number 0 4, .ofCode (number 4 4), number 24 8, number 32 8, number 40 4, number 44 4⟩

/-- The content of a section, if the image has all of it. -/
def SectionHeader.content? (s : SectionHeader) (image : Image) : Option (List UInt8) :=
  if s.kind = .noBits then some [] else slice? image s.start s.size

end EncoderVectors.Elf
