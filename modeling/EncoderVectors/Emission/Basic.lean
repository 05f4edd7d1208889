import EncoderVectors.Catalog.Basic

/-!
# Emissions

An emission is everything a run writes, in order: for each group of the catalog a section, in it a
block for each instance, and in that an instruction for each form. Positions count instructions from
the start of the emission.

Here the positions of sections and of blocks are worked out from the lengths. A run notes them on the
way instead (`Record`, in `EncoderVectors.Emission.Record`), and what it notes are the positions worked
out here (`Generator.record_eq`).
-/

set_option autoImplicit false

namespace EncoderVectors

/-- One emitted instruction. -/
structure Instruction where
  /-- The family it comes from. -/
  family : Family
  /-- The name the assembler takes. -/
  mnemonic : String
  /-- The encoder call. -/
  call : String
  /-- The assembly line. -/
  assembly : String
  /-- The target of a control transfer. -/
  target : Option Target
  deriving DecidableEq, Repr

/-- The forms of one instance, in order. -/
abbrev Block := List Instruction

/-- The blocks of one group, in order. -/
structure Section where
  /-- The family of the group. -/
  family : Family
  /-- The blocks, one for each instance. -/
  blocks : List Block
  deriving DecidableEq, Repr

namespace Section

/-- The instructions of the section. -/
def instructions (s : Section) : List Instruction :=
  s.blocks.flatten

end Section

/-- The positions from `start` up to, not including, `stop`. -/
structure Span where
  /-- The first position. -/
  start : Nat
  /-- The position after the last. -/
  stop : Nat
  deriving DecidableEq, Repr

namespace Span

/-- The number of positions. -/
def size (s : Span) : Nat :=
  s.stop - s.start

/-- Spans of the given sizes, laid end to end from `start`. -/
def tile (start : Nat) : List Nat → List Span
  | [] => []
  | n :: rest => ⟨start, start + n⟩ :: tile (start + n) rest

end Span

/-- Everything a run emits. -/
structure Emission where
  /-- The seed that reproduces the run. -/
  seed : UInt64
  /-- The sections in order. -/
  sections : List Section
  deriving DecidableEq, Repr

namespace Emission

/-- Nothing emitted, under seed zero. -/
def empty : Emission := ⟨0, []⟩

/-- All instructions in order. -/
def instructions (e : Emission) : List Instruction :=
  e.sections.flatMap Section.instructions

/-- All blocks in order. -/
def blocks (e : Emission) : List Block :=
  e.sections.flatMap Section.blocks

/-- The number of instructions. -/
def size (e : Emission) : Nat :=
  e.instructions.length

/-- Each section's family with the positions of its instructions. -/
def sectionSpans (e : Emission) : List (Family × Span) :=
  (e.sections.map Section.family).zip
    (Span.tile 0 (e.sections.map fun s => s.instructions.length))

/-- The positions of every block of more than one form. -/
def expansions (e : Emission) : List Span :=
  (Span.tile 0 (e.blocks.map List.length)).filter fun s => 1 < s.size

end Emission

end EncoderVectors
