/-!
# Faults of object files

Why an object file cannot be read. The faults are listed in the order in which a reader comes upon
them.
-/

set_option autoImplicit false

namespace EncoderVectors.Elf

/-- Why an object file cannot be read. -/
inductive Fault where
  /-- The file is too short to tell what it is. -/
  | noMagic
  /-- The file is something else. -/
  | unknownMagic
  /-- The file header is cut off. -/
  | headerSize
  /-- The byte order or the version is unknown. -/
  | unsupportedHeader
  /-- There is no section header to hold the number of program headers. -/
  | noSectionsForCount
  /-- The first section header is cut off or misplaced. -/
  | firstSection
  /-- Program headers have another size. -/
  | programEntrySize
  /-- The program headers are cut off or misplaced. -/
  | programTable
  /-- Section headers have another size. -/
  | sectionEntrySize
  /-- The section headers are cut off or misplaced. -/
  | sectionTable
  /-- No section holds the names. -/
  | noNames
  /-- The section that should hold the names does not exist. -/
  | namesIndex
  /-- The names end beyond every offset. -/
  | namesSize
  /-- A table of symbols is cut off or misplaced. -/
  | symbolTable
  /-- A section that is referred to does not exist. -/
  | sectionIndex
  /-- The texts end beyond every offset. -/
  | stringsSize
  /-- The section for the texts of symbols holds no texts. -/
  | stringsKind
  /-- A table of section indices is cut off or misplaced. -/
  | wideIndices
  /-- The section that relocations are for does not exist. -/
  | relocationTarget
  /-- Relocations are for relocations. -/
  | nestedRelocations
  /-- The content of a section is cut off. -/
  | content
  deriving DecidableEq, Repr

/-- The wording of a fault. -/
def Fault.message : Fault → String
  | .noMagic => "Could not read file magic"
  | .unknownMagic => "Unknown file magic"
  | .headerSize => "Invalid ELF header size or alignment"
  | .unsupportedHeader => "Unsupported ELF header"
  | .noSectionsForCount => "Missing ELF section headers for e_phnum overflow"
  | .firstSection => "Invalid ELF section header offset or size"
  | .programEntrySize => "Invalid ELF program header entry size"
  | .programTable => "Invalid ELF program header size or alignment"
  | .sectionEntrySize => "Invalid ELF section header entry size"
  | .sectionTable => "Invalid ELF section header offset/size/alignment"
  | .noNames => "Missing ELF e_shstrndx"
  | .namesIndex => "Invalid ELF e_shstrndx"
  | .namesSize => "Invalid ELF shstrtab size"
  | .symbolTable => "Invalid ELF symbol table data"
  | .sectionIndex => "Invalid ELF section index"
  | .stringsSize => "Invalid ELF string section offset or size"
  | .stringsKind => "Invalid ELF string section type"
  | .wideIndices => "Invalid ELF symtab_shndx data"
  | .relocationTarget => "Invalid ELF sh_info for relocation section"
  | .nestedRelocations => "Unsupported ELF sh_info for relocation section"
  | .content => "Invalid ELF section size or offset"

end EncoderVectors.Elf
