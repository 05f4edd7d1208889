import EncoderVectors.Proofs.Emission.Layout

/-!
# Emissions put together

A catalog may be emitted in parts. What is emitted for the groups of one catalog followed by those of
another is what is emitted for the first, followed by what the generator it leaves emits for the
second; only the positions of the second part move on by the length of the first
(`Emission.Joined`). Down to single draws this is the emission as a loop: ask the generator for each
entry as often as wanted, and write the forms of every instance that it gives.

So what stands at the front of an emission does not depend on the groups that follow
(`Generator.emit_composes`).
-/

set_option autoImplicit false

namespace EncoderVectors

/-! ## Spans moved on -/

namespace Span

/-- The span moved on by `n` positions. -/
def shift (n : Nat) (s : Span) : Span :=
  ⟨n + s.start, n + s.stop⟩

@[simp] theorem size_shift (n : Nat) (s : Span) : (s.shift n).size = s.size := by
  simp only [size, shift]
  omega

/-- Tiles that start later are the same tiles moved on. -/
theorem tile_add (n start : Nat) (sizes : List Nat) :
    tile (n + start) sizes = (tile start sizes).map (shift n) := by
  induction sizes generalizing start with
  | nil => rfl
  | cons size sizes ih =>
      rw [tile, tile, List.map_cons, ← ih, shift, Nat.add_assoc]

theorem tile_append (start : Nat) (a b : List Nat) :
    tile start (a ++ b) = tile start a ++ tile (start + a.sum) b := by
  induction a generalizing start with
  | nil => rfl
  | cons size a ih =>
      rw [List.cons_append, tile, ih, tile, List.sum_cons, Nat.add_assoc, List.cons_append]

/-- Moving spans on does not change how many positions they hold. -/
theorem filter_map_shift (n : Nat) (spans : List Span) :
    ((spans.map (shift n)).filter fun s => 1 < s.size) =
      (spans.filter fun s => 1 < s.size).map (shift n) := by
  have kept : (fun s : Span => decide (1 < s.size)) ∘ shift n = fun s => decide (1 < s.size) := by
    funext s
    simp
  rw [List.filter_map, kept]

/-- The tiles of sizes after others are their own tiles, moved on past the others. -/
theorem tile_zero_append (a b : List Nat) :
    tile 0 (a ++ b) = tile 0 a ++ (tile 0 b).map (shift a.sum) := by
  rw [tile_append, Nat.zero_add, ← tile_add, Nat.add_zero]

end Span

/-! ## Emissions one after the other -/

/-- The groups of one catalog, then those of the other. -/
def Catalog.append (a b : Catalog) : Catalog :=
  ⟨a.groups ++ b.groups⟩

theorem Catalog.schedule_append (a b : Catalog) (count : Nat) :
    (a.append b).schedule count = a.schedule count ++ b.schedule count := by
  simp [schedule, members, append]

namespace Emission

/-- The emission is made of two others: the instructions of the first, then those of the second, whose
positions are moved on. -/
structure Joined (whole first second : Emission) : Prop where
  /-- Both parts are emitted under the seed of the whole. -/
  seed : whole.seed = first.seed ∧ whole.seed = second.seed
  /-- The instructions of the parts stand one after the other. -/
  instructions : whole.instructions = first.instructions ++ second.instructions
  /-- The sections of the first part stay where they are, those of the second come after it. -/
  sections : whole.sectionSpans =
    first.sectionSpans ++ second.sectionSpans.map fun s => (s.1, s.2.shift first.size)
  /-- So do the expansions. -/
  expansions : whole.expansions =
    first.expansions ++ second.expansions.map (Span.shift first.size)

variable {whole first second : Emission}

theorem sum_lengths_sections (e : Emission) :
    (e.sections.map fun s => s.instructions.length).sum = e.size := by
  rw [size, instructions, List.length_flatMap]

theorem sum_lengths_blocks (e : Emission) : (e.blocks.map List.length).sum = e.size := by
  rw [size, instructions_eq_flatten, List.length_flatten]

theorem sectionSpans_append (h : whole.sections = first.sections ++ second.sections) :
    whole.sectionSpans =
      first.sectionSpans ++ second.sectionSpans.map fun s => (s.1, s.2.shift first.size) := by
  have lengths := first.length_section_tiles
  rw [sectionSpans, h, List.map_append, List.map_append, Span.tile_zero_append,
    List.zip_append lengths, sum_lengths_sections, List.zip_map_right]
  rfl

theorem expansions_append (h : whole.sections = first.sections ++ second.sections) :
    whole.expansions = first.expansions ++ second.expansions.map (Span.shift first.size) := by
  have blocks : whole.blocks = first.blocks ++ second.blocks := by
    rw [Emission.blocks, h, List.flatMap_append]
    rfl
  rw [expansions, blocks, List.map_append, Span.tile_zero_append, List.filter_append,
    sum_lengths_blocks, Span.filter_map_shift]
  rfl

/-- Two lists of sections one after the other make a joined emission. -/
theorem joined_of_sections (seed : whole.seed = first.seed ∧ whole.seed = second.seed)
    (h : whole.sections = first.sections ++ second.sections) : whole.Joined first second where
  seed := seed
  instructions := by
    rw [Emission.instructions, h, List.flatMap_append]
    rfl
  sections := sectionSpans_append h
  expansions := expansions_append h

end Emission

namespace Generator

variable (g : Generator) (style : CallStyle) (count : Nat)

/-- The sections of more groups are emitted by the generator that the groups before them leave. -/
theorem sectionsOf_append (a b : List Group) (g : Generator) :
    sectionsOf style count (a ++ b) g =
      sectionsOf style count a g ++
        sectionsOf style count b
          (instantiateAll (a.flatMap fun group => group.scheduled count) g).2 := by
  induction a generalizing g with
  | nil => rfl
  | cons group a ih =>
      rw [List.cons_append, sectionsOf, sectionsOf, ih, List.flatMap_cons, instantiateAll_append,
        List.cons_append]

theorem emit_append_sections (a b : Catalog) :
    (g.emit style count (a.append b)).1.sections =
      (g.emit style count a).1.sections ++
        ((g.emit style count a).2.emit style count b).1.sections := by
  rw [emit_fst, emit_fst, emit_fst, emit_snd, a.schedule_eq_flatMap]
  exact sectionsOf_append style count a.groups b.groups g

theorem emit_append_snd (a b : Catalog) :
    (g.emit style count (a.append b)).2 = ((g.emit style count a).2.emit style count b).2 := by
  rw [emit_snd, emit_snd, emit_snd, Catalog.schedule_append, instantiateAll_append]

theorem seed_emit_snd (c : Catalog) : (g.emit style count c).2.seed = g.seed := by
  rw [emit_snd, seed_instantiateAll]

/-- An emission is put together from the emissions of its parts, and down to single draws from the
instances that the generator gives one at a time. What it opens with depends only on the groups it
opens with. -/
theorem emit_composes :
    (∀ a b : Catalog,
      (g.emit style count (a.append b)).1.Joined (g.emit style count a).1
          ((g.emit style count a).2.emit style count b).1 ∧
        (g.emit style count (a.append b)).2 =
          ((g.emit style count a).2.emit style count b).2) ∧
    (∀ c : Catalog,
      (g.emit style count c).1.instructions =
          (instantiateAll (c.schedule count) g).1.flatMap (fun drawn =>
            (drawn.2.forms style).map fun form =>
              ⟨drawn.1, drawn.2.entry.assemblyName, form.call, form.assembly, form.target⟩) ∧
        (g.emit style count c).2 = (instantiateAll (c.schedule count) g).2) ∧
    ∀ a b : Catalog,
      (g.emit style count (a.append b)).1.instructions.take (a.words count) =
        (g.emit style count a).1.instructions := by
  have joined : ∀ a b : Catalog,
      (g.emit style count (a.append b)).1.Joined (g.emit style count a).1
        ((g.emit style count a).2.emit style count b).1 := by
    intro a b
    refine Emission.joined_of_sections ⟨rfl, ?_⟩ (emit_append_sections g style count a b)
    exact (seed_emit_snd g style count a).symm
  refine ⟨?_, ?_, ?_⟩
  · intro a b
    exact ⟨joined a b, emit_append_snd g style count a b⟩
  · intro c
    exact ⟨instructions_emit g style count c, emit_snd g style count c⟩
  · intro a b
    have length : (g.emit style count a).1.instructions.length = a.words count :=
      size_emit g style count a
    rw [(joined a b).instructions, ← length, List.take_left]

end Generator

end EncoderVectors
