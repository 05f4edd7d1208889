import Mathlib.Data.List.Basic
import EncoderVectors.Emission.Source
import EncoderVectors.Proofs.Fixture.Pairing

/-!
# Indifference to the spelling of calls

The call style decides how encoder calls are spelled and nothing else. To mute an emission is to leave
out its calls. Everything but the calls can be read off a muted emission: positions, the assembly
source, and what comes of pairing it with words. Two emissions of one generator in two styles are the
same when muted (`Generator.muted_emit`), so they cannot be told apart by any of these
(`Generator.emit_indifferent`).
-/

set_option autoImplicit false

namespace EncoderVectors

/-! ## Leaving out the calls -/

/-- The instruction without its call. -/
def Instruction.muted (i : Instruction) : Instruction :=
  { i with call := "" }

/-- The section without the calls of its instructions. -/
def Section.muted (s : Section) : Section :=
  { s with blocks := s.blocks.map (List.map Instruction.muted) }

/-- The vector without its call. -/
def TestVector.muted (v : TestVector) : TestVector :=
  { v with call := "" }

/-- The fixture without its calls. -/
def Fixture.muted (f : Fixture) : Fixture :=
  { f with vectors := f.vectors.map TestVector.muted }

theorem Section.instructions_muted (s : Section) :
    s.muted.instructions = s.instructions.map Instruction.muted := by
  rw [instructions, instructions, List.map_flatten]
  rfl

theorem Section.length_instructions_muted (s : Section) :
    s.muted.instructions.length = s.instructions.length := by
  rw [instructions_muted, List.length_map]

theorem Section.sourceLines_muted (s : Section) : s.muted.sourceLines = s.sourceLines := by
  rw [sourceLines, sourceLines, instructions_muted, List.map_map]
  rfl

namespace Emission

/-- The emission without its calls. -/
def muted (e : Emission) : Emission :=
  { e with sections := e.sections.map Section.muted }

variable (e : Emission)

theorem blocks_muted : e.muted.blocks = e.blocks.map (List.map Instruction.muted) := by
  rw [blocks, blocks, muted, List.map_flatMap, List.flatMap_map]
  rfl

theorem instructions_muted : e.muted.instructions = e.instructions.map Instruction.muted := by
  rw [instructions_eq_flatten, instructions_eq_flatten, blocks_muted, List.map_flatten]

theorem size_muted : e.muted.size = e.size := by
  rw [size, size, instructions_muted, List.length_map]

theorem sectionSpans_muted : e.muted.sectionSpans = e.sectionSpans := by
  have families : e.muted.sections.map Section.family = e.sections.map Section.family := by
    rw [muted, List.map_map]
    rfl
  have lengths : (e.muted.sections.map fun s => s.instructions.length) =
      e.sections.map fun s => s.instructions.length := by
    rw [muted, List.map_map]
    exact List.map_congr_left fun s _ => s.length_instructions_muted
  rw [sectionSpans, sectionSpans, families, lengths]

theorem expansions_muted : e.muted.expansions = e.expansions := by
  have lengths : e.muted.blocks.map List.length = e.blocks.map List.length := by
    rw [blocks_muted, List.map_map]
    exact List.map_congr_left fun b _ => List.length_map _
  rw [expansions, expansions, lengths]

theorem source_muted : e.muted.source = e.source := by
  have lines : e.muted.sections.flatMap Section.sourceLines =
      e.sections.flatMap Section.sourceLines := by
    rw [muted, List.flatMap_map]
    exact List.flatMap_congr fun s _ => s.sourceLines_muted
  rw [source, source, sourceLines, sourceLines, lines]

end Emission

/-! ## Pairing -/

namespace Fixture

theorem words_muted (f : Fixture) : f.muted.words = f.words := by
  rw [words, words, muted, List.map_map]
  rfl

/-- The check of forms looks at words and names, not at calls. -/
theorem checkBlocks_muted (blocks : List Block) (words : List UInt32) :
    checkBlocks (blocks.map (List.map Instruction.muted)) words = checkBlocks blocks words := by
  induction blocks generalizing words with
  | nil => rfl
  | cons block blocks ih =>
      have name : (block.map Instruction.muted).head?.map Instruction.mnemonic =
          block.head?.map Instruction.mnemonic := by
        rw [List.head?_map, Option.map_map]
        rfl
      rw [List.map_cons, checkBlocks, checkBlocks, ih, name, List.length_map]

theorem zipWith_muted (instructions : List Instruction) (words : List UInt32) :
    List.zipWith vector (instructions.map Instruction.muted) words =
      (List.zipWith vector instructions words).map TestVector.muted := by
  rw [List.zipWith_map_left, List.map_zipWith]
  rfl

/-- Pairing a muted emission gives the muted fixture, or the same fault. -/
theorem pair_muted (e : Emission) (words : List UInt32) :
    pair e.muted words = (pair e words).map muted := by
  have forms : checkForms e.muted words = checkForms e words := by
    rw [checkForms, checkForms, Emission.blocks_muted, checkBlocks_muted]
  rw [pair, pair, e.size_muted, forms, e.instructions_muted, zipWith_muted]
  -- both checks have the same answer for either emission
  cases checkCount e.size words with
  | error fault => rfl
  | ok _ =>
      cases checkForms e words with
      | error fault => rfl
      | ok _ => rfl

end Fixture

/-! ## Emissions that differ in their calls only -/

namespace Emission

/-- Two emissions that nothing but their calls tells apart. -/
structure Indifferent (e e' : Emission) : Prop where
  /-- They have one seed. -/
  seed : e.seed = e'.seed
  /-- They are of one length. -/
  size : e.size = e'.size
  /-- Their sections have the same families at the same positions. -/
  sections : e.sectionSpans = e'.sectionSpans
  /-- Their expansions are at the same positions. -/
  expansions : e.expansions = e'.expansions
  /-- At each position, family, name, assembly line and target are the same. -/
  instructions : (e.instructions.map fun i => (i.family, i.mnemonic, i.assembly, i.target)) =
    e'.instructions.map fun i => (i.family, i.mnemonic, i.assembly, i.target)
  /-- Their sources are the same. -/
  source : e.source = e'.source
  /-- Words make a fixture with both of them or with neither. The fixtures have the same words and
  differ in their calls at most, and the faults are the same. -/
  pairing : ∀ words,
    (∃ f f', Fixture.pair e words = .ok f ∧ Fixture.pair e' words = .ok f' ∧
      f.words = f'.words ∧ f.muted = f'.muted) ∨
    ∃ fault, Fixture.pair e words = .error fault ∧ Fixture.pair e' words = .error fault

theorem map_muted_instructions (e : Emission) :
    (e.muted.instructions.map fun i => (i.family, i.mnemonic, i.assembly, i.target)) =
      e.instructions.map fun i => (i.family, i.mnemonic, i.assembly, i.target) := by
  rw [instructions_muted, List.map_map]
  rfl

/-- What comes of pairing is known, up to calls, from the muted emission. -/
theorem pair_cases_of_muted_eq {e e' : Emission} (same : e.muted = e'.muted)
    (words : List UInt32) :
    (∃ f f', Fixture.pair e words = .ok f ∧ Fixture.pair e' words = .ok f' ∧
      f.words = f'.words ∧ f.muted = f'.muted) ∨
    ∃ fault, Fixture.pair e words = .error fault ∧ Fixture.pair e' words = .error fault := by
  have answers := Fixture.pair_muted e words
  rw [same, Fixture.pair_muted e' words] at answers
  cases one : Fixture.pair e words with
  | ok f =>
      cases other : Fixture.pair e' words with
      | ok f' =>
          rw [one, other] at answers
          have muted : f'.muted = f.muted := Except.ok.inj answers
          refine Or.inl ⟨f, f', rfl, rfl, ?_, muted.symm⟩
          rw [← f.words_muted, ← f'.words_muted, muted]
      | error fault =>
          rw [one, other] at answers
          cases answers
  | error fault =>
      cases other : Fixture.pair e' words with
      | ok f' =>
          rw [one, other] at answers
          cases answers
      | error fault' =>
          rw [one, other] at answers
          obtain rfl : fault' = fault := Except.error.inj answers
          exact Or.inr ⟨fault', rfl, rfl⟩

/-- Everything but the calls can be read off the muted emission. -/
theorem indifferent_of_muted_eq {e e' : Emission} (same : e.muted = e'.muted) :
    e.Indifferent e' where
  seed := congrArg (fun muted => muted.seed) same
  size := by rw [← e.size_muted, ← e'.size_muted, same]
  sections := by rw [← e.sectionSpans_muted, ← e'.sectionSpans_muted, same]
  expansions := by rw [← e.expansions_muted, ← e'.expansions_muted, same]
  instructions := by rw [← e.map_muted_instructions, ← e'.map_muted_instructions, same]
  source := by rw [← e.source_muted, ← e'.source_muted, same]
  pairing := pair_cases_of_muted_eq same

end Emission

namespace Generator

variable (style other : CallStyle) (count : Nat)

/-- The style of calls goes into the calls of a block and nowhere else. -/
theorem muted_blockOf (drawn : Family × Instance) :
    (blockOf style drawn).map Instruction.muted = (blockOf other drawn).map Instruction.muted := by
  simp [blockOf, Instance.block, Instance.forms, Instance.form, Instruction.muted]

theorem muted_sectionsOf (groups : List Group) (g : Generator) :
    (sectionsOf style count groups g).map Section.muted =
      (sectionsOf other count groups g).map Section.muted := by
  -- drawing comes before writing: both styles find the same instances and leave the same generator
  induction groups generalizing g with
  | nil => rfl
  | cons group groups ih =>
      have blocks := List.map_congr_left
        (l := (instantiateAll (group.scheduled count) g).1)
        fun drawn _ => muted_blockOf style other drawn
      rw [sectionsOf, sectionsOf, List.map_cons, List.map_cons, ih, Section.muted, Section.muted,
        List.map_map, List.map_map]
      exact congrArg (fun written => (⟨group.family, written⟩ : Section) :: _) blocks

theorem muted_emit (g : Generator) (c : Catalog) :
    (g.emit style count c).1.muted = (g.emit other count c).1.muted := by
  rw [emit_fst, emit_fst, Emission.muted, Emission.muted, muted_sectionsOf style other]

/-- However calls are spelled, the emissions differ in their calls only, and the generator is left in
the same state. -/
theorem emit_indifferent (g : Generator) (c : Catalog) :
    (g.emit style count c).1.Indifferent (g.emit other count c).1 ∧
      (g.emit style count c).2 = (g.emit other count c).2 := by
  refine ⟨Emission.indifferent_of_muted_eq (muted_emit style other count g c), ?_⟩
  rw [emit_snd, emit_snd]

end Generator

end EncoderVectors
