import EncoderVectors.Elf.Fault
import EncoderVectors.Elf.Format
import EncoderVectors.Text.Utf8

/-!
# Reading object files

The code of an object file is the content of its first section named `.text`. Before it is looked up,
the tables around it are checked in a fixed order: the headers, the names of sections, the symbols
and the relocations.
-/

set_option autoImplicit false

namespace EncoderVectors.Elf

/-- The name of the section that holds the code. -/
def codeName : String := ".text"

/-- The start of every object file. -/
def magic : List UInt8 := [0x7F, 0x45, 0x4C, 0x46]

/-- The number of bytes that tell what a file is. -/
def identSize : Nat := 16

/-- A count or an index that does not fit the file header is kept in the first section header, and
this mark stands in its place. -/
def overflowMark : Nat := 0xFFFF

/-- Offsets are below this. -/
def offsetLimit : Nat := UInt64.size

/-! ## Headers -/

/-- The width of a file that starts with those bytes. -/
def width? (ident : List UInt8) : Option Width :=
  match ident.drop magic.length with
  | code :: _ =>
      if ident.take magic.length ≠ magic then none
      else if code = 1 then some .bits32
      else if code = 2 then some .bits64
      else none
  | [] => none

/-- The byte order of a file that starts with those bytes; none if it or the version is unknown. -/
def order? (ident : List UInt8) : Option ByteOrder :=
  match ident.drop 5 with
  | code :: version :: _ =>
      if version ≠ 1 then none
      else if code = 1 then some .little
      else if code = 2 then some .big
      else none
  | _ => none

/-- Reads the file header. -/
def readHeader (image : Image) : Except Fault Header :=
  if image.length < identSize then .error .noMagic
  else
    match width? image with
    | none => .error .unknownMagic
    | some width =>
        if image.length < width.headerSize then .error .headerSize
        else
          match order? image with
          | none => .error .unsupportedHeader
          | some order => .ok (.ofBytes ⟨width, order⟩ image)

/-- The bytes of a table that starts at a multiple of `alignment`. -/
def alignedSlice? (image : Image) (alignment start size : Nat) : Option (List UInt8) :=
  if start % alignment = 0 then slice? image start size else none

/-- The first section header, if there is one. It holds the counts that do not fit the file header. -/
def Header.firstSection (h : Header) (image : Image) : Except Fault (Option SectionHeader) :=
  let width := h.format.width
  if h.sections.start = 0 then .ok none
  else if h.sections.entrySize ≠ width.sectionSize then .error .sectionEntrySize
  else
    match alignedSlice? image width.alignment h.sections.start width.sectionSize with
    | none => .error .firstSection
    | some bytes => .ok (some (.ofBytes h.format bytes))

/-- The number of program headers. -/
def Header.programCount (h : Header) (image : Image) : Except Fault Nat :=
  if h.programs.count ≠ overflowMark then .ok h.programs.count
  else do
    match ← h.firstSection image with
    | some first => return first.info
    | none => throw .noSectionsForCount

/-- The program headers are where the file header says. -/
def Header.checkPrograms (h : Header) (image : Image) : Except Fault Unit := do
  let width := h.format.width
  if h.programs.start = 0 then return
  let count ← h.programCount image
  if count = 0 then return
  if h.programs.entrySize ≠ width.programSize then throw .programEntrySize
  if (alignedSlice? image width.alignment h.programs.start (count * width.programSize)).isNone then
    throw .programTable

/-- The number of section headers. -/
def Header.sectionCount (h : Header) (image : Image) : Except Fault Nat :=
  if h.sections.count ≠ 0 then .ok h.sections.count
  else do
    match ← h.firstSection image with
    | some first => return first.size
    | none => return 0

/-- Reads `count` section headers in a row. -/
def sectionHeaders (format : Format) : Nat → List UInt8 → List SectionHeader
  | 0, _ => []
  | count + 1, bytes =>
      .ofBytes format (bytes.take format.width.sectionSize) ::
        sectionHeaders format count (bytes.drop format.width.sectionSize)

/-- Reads the section headers. -/
def Header.readSections (h : Header) (image : Image) : Except Fault (List SectionHeader) := do
  let width := h.format.width
  if h.sections.start = 0 then return []
  let count ← h.sectionCount image
  if count = 0 then return []
  if h.sections.entrySize ≠ width.sectionSize then throw .sectionEntrySize
  match alignedSlice? image width.alignment h.sections.start (count * width.sectionSize) with
  | none => throw .sectionTable
  | some bytes => return sectionHeaders h.format count bytes

/-! ## Names of sections -/

/-- The part of an image that holds names, from `start` up to, not including, `stop`. -/
structure NameTable where
  /-- The offset of the first byte. -/
  start : Nat
  /-- The offset after the last byte. -/
  stop : Nat
  deriving DecidableEq, Repr

/-- The name that starts at `offset` in the table. It ends before the first zero byte; without one
there is no name. -/
def NameTable.name? (t : NameTable) (image : Image) (offset : Nat) : Option (List UInt8) :=
  let start := t.start + offset
  if t.stop ≤ image.length ∧ start ≤ t.stop then
    let bytes := (image.drop start).take (t.stop - start)
    if bytes.contains 0 then some (bytes.takeWhile (· ≠ 0)) else none
  else none

/-- The index of the section that holds the names. -/
def Header.namesSection (h : Header) (image : Image) : Except Fault Nat :=
  if h.namesIndex ≠ overflowMark then .ok h.namesIndex
  else do
    match ← h.firstSection image with
    | some first => return first.link
    | none => return 0

/-- Where the names of sections are; nowhere if there are no sections, or nothing is stored. -/
def Header.readNames (h : Header) (image : Image) (sections : List SectionHeader) :
    Except Fault (Option NameTable) := do
  if sections.isEmpty then return none
  let index ← h.namesSection image
  if index = 0 then throw .noNames
  match sections[index]? with
  | none => throw .namesIndex
  | some s =>
      if s.kind = .noBits then return none
      if offsetLimit ≤ s.start + s.size then throw .namesSize
      return some ⟨s.start, s.start + s.size⟩

/-! ## Symbols and relocations -/

/-- The content of a section is a whole number of entries, and starts at a multiple of
`alignment`. -/
def SectionHeader.isArray (s : SectionHeader) (image : Image) (alignment entrySize : Nat) : Bool :=
  (alignedSlice? image alignment s.start s.size).isSome && s.size % entrySize = 0

/-- The texts of a table of symbols are in a section of texts; index zero stands for no texts. -/
def checkStrings (sections : List SectionHeader) (index : Nat) : Except Fault Unit :=
  if index = 0 then .ok ()
  else
    match sections[index]? with
    | none => .error .sectionIndex
    | some s =>
        if s.kind ≠ .strings then .error .stringsKind
        else if offsetLimit ≤ s.start + s.size then .error .stringsSize
        else .ok ()

/-- The first section of a kind, with its index. -/
def firstOf? (kind : SectionKind) (sections : List SectionHeader) : Option (SectionHeader × Nat) :=
  sections.zipIdx.find? fun (s, _) => s.kind = kind

/-- The tables of section indices for the table of symbols with index `symbols` are in order. -/
def checkWideIndices (image : Image) (sections : List SectionHeader) (symbols : Nat) :
    Except Fault Unit :=
  sections.forM fun s =>
    if s.kind = .wideIndices && s.link = symbols && !s.isArray image 4 4 then .error .wideIndices
    else .ok ()

/-- The first table of symbols of a kind is in order, and so are its texts and its tables of section
indices. -/
def checkSymbols (width : Width) (image : Image) (sections : List SectionHeader)
    (kind : SectionKind) : Except Fault Unit :=
  match firstOf? kind sections with
  | none => .ok ()
  | some (s, index) => do
      if !s.isArray image width.alignment width.symbolSize then throw .symbolTable
      checkStrings sections s.link
      checkWideIndices image sections index

/-- Relocations that belong to the table of symbols with index `symbols` are for a section that
exists and holds no relocations itself. -/
def checkRelocation (sections : List SectionHeader) (symbols : Nat) (s : SectionHeader) :
    Except Fault Unit :=
  if s.kind.isRelocation && s.link = symbols && s.info ≠ 0 then
    match sections[s.info]? with
    | none => .error .relocationTarget
    | some target => if target.kind.isRelocation then .error .nestedRelocations else .ok ()
  else .ok ()

/-- All relocations are in order; they are looked at from the last section to the first. -/
def checkRelocations (sections : List SectionHeader) : Except Fault Unit :=
  sections.reverse.forM
    (checkRelocation sections (((firstOf? .symbols sections).map Prod.snd).getD 0))

/-! ## Code -/

/-- The first section of a name. -/
def findNamed? (image : Image) (names : Option NameTable) (name : List UInt8)
    (sections : List SectionHeader) : Option SectionHeader :=
  sections.find? fun s => (names.bind fun t => t.name? image s.name) == some name

/-- The code in an object file, or none if there is no section for it. -/
def readCode (image : Image) : Except Fault (Option (List UInt8)) := do
  let header ← readHeader image
  header.checkPrograms image
  let sections ← header.readSections image
  let names ← header.readNames image sections
  checkSymbols header.format.width image sections .symbols
  checkSymbols header.format.width image sections .dynamicSymbols
  checkRelocations sections
  match findNamed? image names (Text.utf8 codeName) sections with
  | none => return none
  | some s =>
      match s.content? image with
      | none => throw .content
      | some code => return some code

end EncoderVectors.Elf
