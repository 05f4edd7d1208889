import EncoderVectors.Emission.Record
import EncoderVectors.Proofs.Emission.Composition
import EncoderVectors.Proofs.Instance.Drawn

/-!
# Records and emissions

The record of a run is written instruction by instruction, with positions noted on the way
(`Generator.record`); an emission is put together from whole sections (`Generator.emit`). Both draw the
same, and the record is that of the emission (`Generator.record_eq`). The proof goes up through the
loops: writing instances down one after another is writing their blocks down at once
(`Record.extend_extend`), so each loop adds the blocks of what it draws, and a section that is closed
after that is one more section of the emission.

So what is noted on the way fits together: `Generator.record_laidOut` collects it. The positions noted
for sections and expansions exist, and looking them up never falls back on the empty list.
-/

set_option autoImplicit false

namespace EncoderVectors

/-! ## Slices -/

namespace Span

variable {α : Type}

/-- Positions that exist can be looked up. -/
theorem slice?_eq_some {s : Span} {l : List α} (forward : s.start ≤ s.stop)
    (inside : s.stop ≤ l.length) : s.slice? l = some (s.cut l) := by
  rw [slice?, if_pos ⟨forward, inside⟩, cut, size, List.drop_take]

end Span

/-! ## Writing down blocks -/

namespace Record

/-- The record with blocks written down after everything else, each noted if it is long. -/
def extend (r : Record) (blocks : List Block) : Record :=
  { r with
    instructions := r.instructions ++ blocks.flatten
    expansions := r.expansions ++
      (Span.tile r.instructions.length (blocks.map List.length)).filter fun s => 1 < s.size }

theorem extend_nil (r : Record) : r.extend [] = r := by
  simp [extend, Span.tile]

/-- Blocks may be written down in parts: the later ones start where the earlier ones end. -/
theorem extend_extend (r : Record) (a b : List Block) :
    (r.extend a).extend b = r.extend (a ++ b) := by
  have length : (r.instructions ++ a.flatten).length =
      r.instructions.length + (a.map List.length).sum := by
    rw [List.length_append, List.length_flatten]
  simp only [extend, length, List.flatten_append, List.map_append, Span.tile_append,
    List.filter_append, List.append_assoc]

/-- Writing down an instance is writing down its block. -/
theorem write_eq_extend (r : Record) (style : CallStyle) (drawn : Family × Instance) :
    r.write style drawn.1 drawn.2 = r.extend [blockOf style drawn] := by
  have length : (blockOf style drawn).length = (drawn.2.forms style).length := by
    rw [blockOf, Instance.block, List.length_map]
  have size : Span.size ⟨r.instructions.length,
      r.instructions.length + (drawn.2.forms style).length⟩ = (drawn.2.forms style).length :=
    Nat.add_sub_cancel_left _ _
  simp only [write, extend, List.flatten_singleton, List.map_singleton, Span.tile, length,
    List.length_append, List.length_map, List.filter_singleton, size]
  rw [blockOf, Instance.block]
  by_cases long : 1 < (drawn.2.forms style).length
  · simp [long]
  · simp [long]

/-- A section that is closed after its blocks were written down is one more section. -/
theorem close_extend (e : Emission) (family : Family) (blocks : List Block) :
    (e.record.extend blocks).close family e.record.instructions.length =
      Emission.record ⟨e.seed, e.sections ++ [⟨family, blocks⟩]⟩ := by
  let more : Emission := ⟨e.seed, [⟨family, blocks⟩]⟩
  let whole : Emission := ⟨e.seed, e.sections ++ [⟨family, blocks⟩]⟩
  have joined : whole.Joined e more := Emission.joined_of_sections ⟨rfl, rfl⟩ rfl
  have instructions : whole.instructions = e.instructions ++ blocks.flatten := by
    rw [joined.instructions]
    simp [more, Emission.instructions, Section.instructions]
  -- the new section by itself starts at position zero; joined to the others it moves on past them
  have sections : whole.sectionSpans =
      e.sectionSpans ++ [(family, ⟨e.size, e.size + blocks.flatten.length⟩)] := by
    rw [joined.sections]
    simp [more, Emission.sectionSpans, Span.tile, Span.shift, Section.instructions]
  have expansions : whole.expansions =
      e.expansions ++ (Span.tile e.size (blocks.map List.length)).filter fun s => 1 < s.size := by
    rw [joined.expansions, ← Nat.add_zero e.size, Span.tile_add, Span.filter_map_shift]
    simp [more, Emission.expansions, Emission.blocks]
  change _ = Record.mk whole.seed whole.instructions whole.sectionSpans whole.expansions
  rw [instructions, sections, expansions, Emission.size, ← List.length_append]
  rfl

end Record

/-! ## The loops -/

theorem Group.scheduled_eq_flatMap (group : Group) (count : Nat) :
    group.scheduled count =
      group.entries.flatMap fun e => List.replicate count (group.family, e) := by
  simp [scheduled, schedule, List.map_flatMap]

namespace Generator

variable (style : CallStyle) (count : Nat)

/-- Repetitions of an entry write down the blocks of what is drawn for them. -/
theorem recordEntry_eq (family : Family) (e : Entry) (n : Nat) (r : Record) (g : Generator) :
    recordEntry style family e n (r, g) =
      (r.extend ((instantiateAll (List.replicate n (family, e)) g).1.map (blockOf style)),
        (instantiateAll (List.replicate n (family, e)) g).2) := by
  induction n generalizing r g with
  | zero => exact Prod.ext r.extend_nil.symm rfl
  | succ n ih =>
      have first : r.write style family (g.instantiate e).1 =
          r.extend [blockOf style (family, (g.instantiate e).1)] :=
        r.write_eq_extend style (family, (g.instantiate e).1)
      have step : recordEntry style family e (n + 1) (r, g) =
          recordEntry style family e n
            (r.write style family (g.instantiate e).1, (g.instantiate e).2) := rfl
      rw [step, ih, first, Record.extend_extend]
      rfl

/-- The entries of a group write down the blocks of what is drawn for them, one entry after another. -/
theorem foldl_recordEntry (family : Family) (es : List Entry) (r : Record) (g : Generator) :
    es.foldl (fun state e => recordEntry style family e count state) (r, g) =
      (r.extend ((instantiateAll (es.flatMap fun e => List.replicate count (family, e)) g).1.map
          (blockOf style)),
        (instantiateAll (es.flatMap fun e => List.replicate count (family, e)) g).2) := by
  induction es generalizing r g with
  | nil => exact Prod.ext r.extend_nil.symm rfl
  | cons e es ih =>
      rw [List.foldl_cons, recordEntry_eq, ih, Record.extend_extend, List.flatMap_cons,
        instantiateAll_append, List.map_append]

/-- A group adds one section to the record of an emission. -/
theorem recordGroup_eq (e : Emission) (group : Group) (g : Generator) :
    recordGroup style count (e.record, g) group =
      (Emission.record ⟨e.seed, e.sections ++
          [⟨group.family, (instantiateAll (group.scheduled count) g).1.map (blockOf style)⟩]⟩,
        (instantiateAll (group.scheduled count) g).2) := by
  rw [recordGroup, foldl_recordEntry, ← Group.scheduled_eq_flatMap, ← Record.close_extend]

/-- The groups of a catalog add their sections one after another. -/
theorem foldl_recordGroup (groups : List Group) (e : Emission) (g : Generator) :
    groups.foldl (recordGroup style count) (e.record, g) =
      (Emission.record ⟨e.seed, e.sections ++ sectionsOf style count groups g⟩,
        (instantiateAll (groups.flatMap fun group => group.scheduled count) g).2) := by
  induction groups generalizing e g with
  | nil =>
      rw [List.foldl_nil, sectionsOf, List.append_nil]
      rfl
  | cons group groups ih =>
      rw [List.foldl_cons, recordGroup_eq, ih, sectionsOf, List.flatMap_cons,
        instantiateAll_append, List.append_assoc]
      rfl

/-- What is written down on the way is the record of what is emitted, and both leave the same
generator. -/
theorem record_eq (g : Generator) (c : Catalog) :
    g.record style count c =
      ((g.emit style count c).1.record, (g.emit style count c).2) := by
  have start : ({ seed := g.seed } : Record) = Emission.record ⟨g.seed, []⟩ := rfl
  rw [record, start, foldl_recordGroup, emit_fst, emit_snd, c.schedule_eq_flatMap]
  rfl

end Generator

/-! ## Draws -/

/-- Instances are drawn for the entries one after another: the numbers of each from the keystream, each
number within so many looks and with no other limit on refused words, and the constructors take
them. -/
inductive Generator.DrawnAll (looks : Nat) :
    List (Family × Entry) → Generator → List (Family × Instance) → Generator → Prop where
  /-- No entries draw nothing. -/
  | nil {g : Generator} : DrawnAll looks [] g [] g
  /-- The first entry draws before the others. -/
  | cons {family : Family} {i : Instance} {entries : List (Family × Entry)}
      {drawn : List (Family × Instance)} {g g' : Generator} {stream : ChaCha.Keystream}
      {u : Filling.Unchecked} (numbers : Filling.Drawn looks i.entry.shape.layout g.stream u stream)
      (checked : u.check = some i.filling)
      (others : DrawnAll looks entries { g with stream := stream } drawn g') :
      DrawnAll looks ((family, i.entry) :: entries) g ((family, i) :: drawn) g'

/-- The generator yields what is drawn, if patience lasts. -/
theorem Generator.DrawnAll.instantiateAll {looks : Nat} {entries : List (Family × Entry)}
    {drawn : List (Family × Instance)} {g g' : Generator} (h : DrawnAll looks entries g drawn g')
    (enough : looks ≤ drawPatience) : instantiateAll entries g = (drawn, g') := by
  induction h with
  | nil => rfl
  | @cons family i entries drawn g g' stream u numbers checked others ih =>
      obtain ⟨-, f, taken, -, run⟩ := numbers.legal
      obtain rfl : f = i.filling := Option.some.inj (taken.symm.trans checked)
      have first : g.instantiate i.entry = (i, { g with stream := stream }) := by
        rw [instantiate, Instance.run_draw_of_run (run enough) i.fits]
      simp only [Generator.instantiateAll, first, ih]

/-! ## The layout of a record -/

/-- The layout of the record of a catalog, with `count` instances of each entry; `drawn` are the
instances in order of drawing. -/
structure Record.LaidOut (r : Record) (style : CallStyle) (count : Nat) (c : Catalog)
    (drawn : List (Family × Instance)) : Prop where
  /-- The number of instructions is the one the catalog promises. -/
  size : r.instructions.length = c.words count
  /-- Form `j` of repetition `r` of entry `k` stands after `count` instances of every entry before
  it and `r` instances of its own, and is written from the instance drawn for that repetition. -/
  position : ∀ (k n j : Nat) (family : Family) (entry : Entry) (t : Option Target),
    c.members[k]? = some (family, entry) → n < count → entry.shape.targets[j]? = some t →
      ∃ i, drawn[count * k + n]? = some (family, i) ∧ i.entry = entry ∧
        r.instructions[count * c.formsBefore k + n * entry.forms + j]? =
          some ⟨family, entry.assemblyName, i.call style t, i.assembly t, t⟩
  /-- There is a section for each group, in order, under the family of the group. -/
  families : r.sections.map Prod.fst = c.groups.map Group.family
  /-- A section has as many positions as its group has words. -/
  section_sizes : r.sections.map (fun s => s.2.size) = c.groups.map (fun g => g.words count)
  /-- The positions of the sections follow one another from the first to the last. -/
  tiles : Span.Tiles 0 (r.sections.map Prod.snd) r.instructions.length
  /-- The positions of a section can be looked up. -/
  lookups : ∀ s ∈ r.sections, s.2.slice? r.instructions = some (r.sectionInstructions s)
  /-- What the sections hold, one after another, are all the instructions. -/
  concatenated : r.sections.flatMap r.sectionInstructions = r.instructions
  /-- Expansions stand in order and do not overlap. -/
  apart : r.expansions.Pairwise fun a b => a.start < b.start ∧ a.stop ≤ b.start
  /-- An expansion holds three instructions: for the current address, then forward, then backward. -/
  expansion : ∀ s ∈ r.expansions, s.size = 3 ∧ ∃ forms, s.slice? r.instructions = some forms ∧
    forms.map Instruction.target = [some .current, some .forward, some .backward]
  /-- Expansions take up the positions that have a target, and no other. -/
  targeted : ∀ p, (∃ s ∈ r.expansions, s.start ≤ p ∧ p < s.stop) ↔
    ∃ ins, r.instructions[p]? = some ins ∧ ins.target.isSome = true

namespace Emission

variable {e : Emission}

/-- The positions of a section can be looked up, and what is found there is what they cut out. -/
theorem slice?_of_mem_sectionSpans {s : Family × Span} (h : s ∈ e.sectionSpans) :
    s.2.slice? e.instructions = some (s.2.cut e.instructions) := by
  have bounds := e.tiles_sectionSpans.bounds.2 s.2 (List.mem_map_of_mem h)
  exact Span.slice?_eq_some bounds.1 bounds.2

theorem slice?_of_mem_expansions {s : Span} (h : s ∈ e.expansions) :
    s.slice? e.instructions = some (s.cut e.instructions) := by
  -- expansions are among the tiles of all blocks
  have tiles := Span.tiles_tile 0 (e.blocks.map List.length)
  have bounds := tiles.bounds.2 s (List.mem_filter.mp h).1
  rw [Nat.zero_add, sum_lengths_blocks] at bounds
  exact Span.slice?_eq_some bounds.1 bounds.2

theorem sectionInstructions_record {s : Family × Span} (h : s ∈ e.sectionSpans) :
    e.record.sectionInstructions s = s.2.cut e.instructions := by
  rw [Record.sectionInstructions]
  exact congrArg (Option.getD · []) (slice?_of_mem_sectionSpans h)

/-- What the sections of an emission hold, one after another, are all its instructions. -/
theorem flatMap_sectionInstructions (e : Emission) :
    e.sectionSpans.flatMap e.record.sectionInstructions = e.instructions := by
  have cuts : e.sectionSpans.map e.record.sectionInstructions =
      e.sectionSpans.map fun s => s.2.cut e.instructions :=
    List.map_congr_left fun _ h => sectionInstructions_record h
  rw [List.flatMap_def, cuts, map_cut_sectionSpans, ← List.flatMap_def]
  rfl

end Emission

namespace Generator

variable (g : Generator) (style : CallStyle) (count : Nat) (c : Catalog)

theorem section_sizes_emit :
    ((g.emit style count c).1.sectionSpans.map fun s => s.2.size) =
      c.groups.map fun group => group.words count := by
  have sizes := congrArg (List.map Span.size)
    (Emission.spans_sectionSpans (g.emit style count c).1)
  rw [Span.map_size_tile, List.map_map] at sizes
  refine Eq.trans sizes ?_
  rw [emit_fst]
  exact sizes_sectionsOf style count c.groups g

theorem laidOut_record_emit :
    (g.emit style count c).1.record.LaidOut style count c (g.instances count c) where
  size := size_emit g style count c
  position := by
    intro k n j family entry t h hn hj
    exact getElem?_emit g style count c h hn hj
  families := by
    have families := Emission.families_sectionSpans (g.emit style count c).1
    rw [emit_fst, families_sectionsOf] at families
    rw [emit_fst]
    exact families
  section_sizes := section_sizes_emit g style count c
  tiles := Emission.tiles_sectionSpans _
  lookups := by
    intro s hs
    rw [Emission.sectionInstructions_record hs]
    exact Emission.slice?_of_mem_sectionSpans hs
  concatenated := Emission.flatMap_sectionInstructions _
  apart := Emission.pairwise_expansions _
  expansion := by
    intro s hs
    obtain ⟨size, targets⟩ := (regular_emit g style count c).targets_expansion hs
    exact ⟨size, _, Emission.slice?_of_mem_expansions hs, targets⟩
  targeted := (regular_emit g style count c).mem_expansion_iff

/-- Everything written down stands where the catalog and the count put it, and the positions noted on
the way are those of an emission put together from whole sections. The instances are those that are
drawn from the keystream with no limit on refused words, as long as patience lasts. -/
theorem record_laidOut :
    (g.record style count c).1.LaidOut style count c (g.instances count c) ∧
      g.record style count c = ((g.emit style count c).1.record, (g.emit style count c).2) ∧
      ∀ looks drawn g', DrawnAll looks (c.schedule count) g drawn g' → looks ≤ drawPatience →
        g.instances count c = drawn ∧ (g.record style count c).2 = g' := by
  rw [record_eq]
  refine ⟨laidOut_record_emit g style count c, rfl, ?_⟩
  intro looks drawn g' h enough
  rw [emit_snd, instances, h.instantiateAll enough]
  exact ⟨rfl, rfl⟩

end Generator

/-- A jump to the address in a register. -/
def registerJump : Entry :=
  ⟨⟨"jr", by decide⟩, .ofSlots [.general], by decide⟩

/-- A catalog with an empty group, and with one family in two groups. -/
def mixedCatalog : Catalog :=
  ⟨[⟨.abs, [bareJump]⟩, ⟨.op, []⟩, ⟨.abs, [registerJump, bareJump]⟩]⟩

/-- A register is drawn with the first word of a stream if that word is kept. -/
theorem exists_drawn_registerJump (s : ChaCha.Keystream)
    (kept : DrawMethod.modulus.accepts 31 ((rawWord .modulus).run s).1.val = true) :
    ∃ (i : Instance) (u : Filling.Unchecked), i.entry = registerJump ∧ u.check = some i.filling ∧
      Filling.Drawn 1 i.entry.shape.layout s u ((rawWord .modulus).run s).2 := by
  have index : Draws .modulus RegisterClass.general.indices 1 s _ ((rawWord .modulus).run s).2 :=
    .kept rfl (of_decide_eq_true kept)
  have drawn : Filling.Drawn 1 registerJump.shape.layout s (.operands [.register .general _]) _ :=
    .slots (.cons (.register index) .nil)
  obtain ⟨-, f, checked, legal, -⟩ := drawn.legal
  exact ⟨⟨registerJump, f, legal.accepts⟩, _, rfl, checked, drawn⟩

namespace Generator

/-- Control: between the two jumps of the last group stand two instances that each take one word from
the stream, and the group in the middle takes up no positions. -/
theorem record_laidOut_mixed :
    let g := ofSeed 0
    let r := (g.record {} 2 mixedCatalog).1
    r.sections = [(.abs, ⟨0, 6⟩), (.op, ⟨6, 6⟩), (.abs, ⟨6, 14⟩)] ∧
      r.expansions = [⟨0, 3⟩, ⟨3, 6⟩, ⟨8, 11⟩, ⟨11, 14⟩] ∧
      ∃ drawn g', DrawnAll 1 (mixedCatalog.schedule 2) g drawn g' ∧
        ∃ i, drawn[5]? = some (.abs, i) ∧ i.entry = bareJump ∧ r.instructions[13]? =
          some ⟨.abs, "j", i.call {} (some .backward), i.assembly (some .backward),
            some .backward⟩ := by
  intro g r
  have name : bareJump.assemblyName = "j" := by decide +kernel
  -- jumps draw nothing, so the stream is used by the two register jumps only
  obtain ⟨i, u, entry, checked, numbers⟩ :=
    exists_drawn_registerJump g.stream (by decide +kernel)
  obtain ⟨i', u', entry', checked', numbers'⟩ :=
    exists_drawn_registerJump ((rawWord .modulus).run g.stream).2 (by decide +kernel)
  let jump : Instance := ⟨bareJump, .operands [], rfl⟩
  have bare : ∀ s : ChaCha.Keystream, Filling.Drawn 1 jump.entry.shape.layout s (.operands []) s :=
    fun s => .slots .nil
  have drawn : DrawnAll 1 [(.abs, jump.entry), (.abs, jump.entry), (.abs, i.entry),
      (.abs, i'.entry), (.abs, jump.entry), (.abs, jump.entry)] g
      [(.abs, jump), (.abs, jump), (.abs, i), (.abs, i'), (.abs, jump), (.abs, jump)] _ :=
    .cons (bare _) rfl (.cons (bare _) rfl (.cons numbers checked (.cons numbers' checked'
      (.cons (bare _) rfl (.cons (bare _) rfl .nil)))))
  rw [entry, entry'] at drawn
  obtain ⟨layout, -, same⟩ := record_laidOut g {} 2 mixedCatalog
  obtain ⟨instances, -⟩ := same 1 _ _ drawn (by decide)
  rw [instances] at layout
  rw [← name]
  exact ⟨by decide +kernel, by decide +kernel, _, _, drawn,
    layout.position 2 1 2 .abs bareJump (some .backward) rfl (by decide) rfl⟩

end Generator
end EncoderVectors
