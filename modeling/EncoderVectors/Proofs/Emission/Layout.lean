import EncoderVectors.Proofs.Emission.Span
import EncoderVectors.Proofs.Emission.Trace

/-!
# The layout of an emission

Where everything stands in an emission follows from the catalog and the count alone. The block of an
instance has an instruction for each target of its entry, so it is either one instruction without a
target or one for each of the three (`Emission.Regular`). Repetition `r` of entry `k` is the instance
of number `count * k + r`; all instances before it belong to earlier entries or to earlier
repetitions, and that gives the position of its block (`Generator.getElem?_emit`).
-/

set_option autoImplicit false

namespace EncoderVectors

/-! ## Blocks -/

namespace Instance

variable (i : Instance) (style : CallStyle) (family : Family)

theorem targets_block : (i.block style family).map Instruction.target = i.entry.shape.targets := by
  simp [block, forms, form, Function.comp_def]

theorem length_block : (i.block style family).length = i.entry.forms := by
  rw [← List.length_map Instruction.target, targets_block]
  rfl

theorem getElem?_block {j : Nat} {t : Option Target} (h : i.entry.shape.targets[j]? = some t) :
    (i.block style family)[j]? =
      some ⟨family, i.entry.assemblyName, i.call style t, i.assembly t, t⟩ := by
  simp [block, forms, form, h]

end Instance

/-- The targets of a shape: none at all, or each of the three. -/
theorem Shape.targets_eq (s : Shape) :
    s.transfer = none ∧ s.targets = [none] ∨
      s.transfer.isSome = true ∧ s.targets = Target.all.map some := by
  cases h : s.transfer with
  | none => exact Or.inl ⟨rfl, by simp [targets, h]⟩
  | some x => exact Or.inr ⟨rfl, by simp [targets, h]⟩

/-! ## Repetitions -/

section Repetition

variable {α : Type}

/-- What stands before repetition `r` of the element of number `k`. -/
theorem take_flatMap_replicate {l : List α} {k r count : Nat} {a : α} (h : l[k]? = some a)
    (hr : r ≤ count) :
    (l.flatMap (List.replicate count)).take (count * k + r) =
      (l.take k).flatMap (List.replicate count) ++ List.replicate r a := by
  induction l generalizing k with
  | nil => simp at h
  | cons b l ih =>
      cases k with
      | zero =>
          obtain rfl : b = a := by simpa using h
          simp [List.take_append_of_le_length, hr]
      | succ k =>
          have rest := ih (k := k) (by simpa using h)
          -- all repetitions of the first element stand before any of the others
          have past : count * (k + 1) + r = (List.replicate count b).length + (count * k + r) := by
            rw [List.length_replicate, Nat.mul_succ]
            omega
          rw [List.flatMap_cons, past, List.take_length_add_append, rest, List.take_succ_cons,
            List.flatMap_cons, List.append_assoc]

theorem getElem?_flatMap_replicate {l : List α} {k r count : Nat} {a : α} (h : l[k]? = some a)
    (hr : r < count) : (l.flatMap (List.replicate count))[count * k + r]? = some a := by
  -- the repetitions of each element are one part of the list
  have part : (l.map (List.replicate count))[k]? = some (List.replicate count a) := by
    rw [List.getElem?_map, h, Option.map_some]
  have before : (((l.map (List.replicate count)).take k).map List.length).sum = count * k := by
    have hk : k ≤ l.length := Nat.le_of_lt (List.getElem?_eq_some_iff.mp h).1
    simp [← List.map_take, Function.comp_def, List.map_const', hk, Nat.mul_comm]
  have found := getElem?_flatten_take part (j := r) (by simpa using hr)
  rw [before, ← List.flatMap_def] at found
  rw [found, List.getElem?_replicate, if_pos hr]

/-- Weights add up once for each repetition. -/
theorem sum_map_flatMap_replicate (weight : α → Nat) (count : Nat) (l : List α) :
    ((l.flatMap (List.replicate count)).map weight).sum = count * (l.map weight).sum := by
  induction l with
  | nil => rfl
  | cons a l ih =>
      rw [List.flatMap_cons, List.map_append, List.sum_append, ih, List.map_replicate,
        List.sum_replicate_nat, List.map_cons, List.sum_cons, Nat.mul_add]

end Repetition

/-! ## Numbers of words -/

namespace Catalog

/-- The number of forms of one instance each of the entries before number `k`. -/
def formsBefore (c : Catalog) (k : Nat) : Nat :=
  ((c.entries.take k).map Entry.forms).sum

theorem map_snd_members (c : Catalog) : c.members.map Prod.snd = c.entries := by
  simp [members, entries, List.map_flatMap, Function.comp_def]

theorem formsBefore_eq (c : Catalog) (k : Nat) :
    c.formsBefore k = ((c.members.take k).map fun m => m.2.forms).sum := by
  rw [formsBefore, ← map_snd_members, ← List.map_take, List.map_map]
  rfl

end Catalog

theorem Entry.words_eq (count : Nat) (es : List Entry) :
    Entry.words count es = count * (es.map Entry.forms).sum := by
  induction es with
  | nil => rfl
  | cons e es ih => rw [words, ih, List.map_cons, List.sum_cons, Nat.mul_add, Nat.mul_comm count e.forms]

theorem Group.sum_forms_schedule (g : Group) (count : Nat) :
    ((g.schedule count).map Entry.forms).sum = g.words count := by
  rw [schedule, sum_map_flatMap_replicate, words, Entry.words_eq]

/-! ## Emissions made of whole instances -/

namespace Emission

/-- Every block is one instruction without a target, or one instruction for each target in order. -/
def Regular (e : Emission) : Prop :=
  ∀ b ∈ e.blocks, b.map Instruction.target = [none] ∨
    b.map Instruction.target = Target.all.map some

/-- The span of the block of number `n`. -/
def blockSpan (e : Emission) (n : Nat) (b : Block) : Span :=
  ⟨((e.blocks.take n).map List.length).sum, ((e.blocks.take n).map List.length).sum + b.length⟩

variable {e : Emission}

theorem cut_blockSpan {n : Nat} {b : Block} (h : e.blocks[n]? = some b) :
    (e.blockSpan n b).cut e.instructions = b := by
  rw [instructions_eq_flatten]
  exact Span.cut_flatten_take h

/-- The expansions are the spans of the blocks of more than one instruction. -/
theorem mem_expansions_iff {s : Span} :
    s ∈ e.expansions ↔ ∃ n b, e.blocks[n]? = some b ∧ 1 < b.length ∧ s = e.blockSpan n b := by
  rw [expansions, List.mem_filter, Span.mem_tile_iff, decide_eq_true_eq]
  constructor
  · rintro ⟨⟨n, size, found, rfl⟩, long⟩
    rw [List.getElem?_map, Option.map_eq_some_iff] at found
    obtain ⟨b, found, rfl⟩ := found
    refine ⟨n, b, found, ?_, ?_⟩
    · simpa [Span.size] using long
    · simp [blockSpan, List.map_take]
  · rintro ⟨n, b, found, long, rfl⟩
    refine ⟨⟨n, b.length, ?_, ?_⟩, ?_⟩
    · rw [List.getElem?_map, found, Option.map_some]
    · simp [blockSpan, List.map_take]
    · simpa [blockSpan, Span.size] using long

/-- Expansions stand in order and do not overlap. -/
theorem pairwise_expansions (e : Emission) :
    e.expansions.Pairwise fun a b => a.start < b.start ∧ a.stop ≤ b.start := by
  have apart := (Span.pairwise_tile 0 (e.blocks.map List.length)).filter fun s => 1 < s.size
  refine apart.imp_of_mem ?_
  intro a b ha _ le
  have long : 1 < a.size := by simpa using (List.mem_filter.mp ha).2
  unfold Span.size at long
  exact ⟨by omega, le⟩

/-- An expansion holds one instruction for each target, in order. -/
theorem Regular.targets_expansion (regular : e.Regular) {s : Span} (h : s ∈ e.expansions) :
    s.size = Target.all.length ∧
      (s.cut e.instructions).map Instruction.target = Target.all.map some := by
  obtain ⟨n, b, found, long, rfl⟩ := mem_expansions_iff.mp h
  rw [cut_blockSpan found]
  rcases regular b (List.mem_of_getElem? found) with single | all
  · -- one instruction alone makes no expansion
    have length := congrArg List.length single
    rw [List.length_map, List.length_singleton] at length
    omega
  · have length := congrArg List.length all
    refine ⟨?_, all⟩
    simpa [blockSpan, Span.size] using length

/-- The instructions of the long blocks are those that have a target. -/
theorem Regular.isSome_target_iff (regular : e.Regular) {b : Block} {ins : Instruction}
    (hb : b ∈ e.blocks) (h : ins ∈ b) : ins.target.isSome = true ↔ 1 < b.length := by
  have among : ins.target ∈ b.map Instruction.target := List.mem_map_of_mem h
  have length : (b.map Instruction.target).length = b.length := List.length_map _
  rcases regular b hb with single | all
  · rw [single] at among length
    have target : ins.target = none := by simpa using among
    rw [target, ← length]
    decide
  · rw [all] at among length
    obtain ⟨t, -, target⟩ := List.mem_map.mp among
    rw [← target, ← length]
    simp [Target.all]

/-- The expansions take up exactly the positions that have a target. -/
theorem Regular.mem_expansion_iff (regular : e.Regular) (p : Nat) :
    (∃ s ∈ e.expansions, s.start ≤ p ∧ p < s.stop) ↔
      ∃ ins, e.instructions[p]? = some ins ∧ ins.target.isSome = true := by
  rw [instructions_eq_flatten]
  constructor
  · rintro ⟨s, hs, low, high⟩
    obtain ⟨n, b, found, long, rfl⟩ := mem_expansions_iff.mp hs
    obtain ⟨j, rfl⟩ := Nat.exists_eq_add_of_le low
    have hj : j < b.length := by simpa [blockSpan] using high
    refine ⟨b[j], ?_, ?_⟩
    · rw [blockSpan, getElem?_flatten_take found hj, List.getElem?_eq_getElem hj]
    · rw [regular.isSome_target_iff (List.mem_of_getElem? found) (List.getElem_mem hj)]
      exact long
  · rintro ⟨ins, found, target⟩
    obtain ⟨n, j, b, hb, hj, rfl⟩ := exists_part (List.getElem?_eq_some_iff.mp found).1
    rw [getElem?_flatten_take hb hj] at found
    refine ⟨e.blockSpan n b, mem_expansions_iff.mpr ⟨n, b, hb, ?_, rfl⟩, ?_, ?_⟩
    · rwa [← regular.isSome_target_iff (List.mem_of_getElem? hb) (List.mem_of_getElem? found)]
    · exact Nat.le_add_right _ _
    · exact Nat.add_lt_add_left hj _

/-! ## Sections -/

theorem length_section_tiles (e : Emission) :
    (e.sections.map Section.family).length =
      (Span.tile 0 (e.sections.map fun s => s.instructions.length)).length := by
  rw [Span.length_tile, List.length_map, List.length_map]

theorem families_sectionSpans (e : Emission) :
    e.sectionSpans.map Prod.fst = e.sections.map Section.family :=
  List.map_fst_zip (Nat.le_of_eq e.length_section_tiles)

theorem spans_sectionSpans (e : Emission) :
    e.sectionSpans.map Prod.snd = Span.tile 0 (e.sections.map fun s => s.instructions.length) :=
  List.map_snd_zip (Nat.le_of_eq e.length_section_tiles.symm)

/-- The spans of the sections follow one another over the whole emission. -/
theorem tiles_sectionSpans (e : Emission) :
    Span.Tiles 0 (e.sectionSpans.map Prod.snd) e.size := by
  have tiles := Span.tiles_tile 0 (e.sections.map fun s => s.instructions.length)
  rw [spans_sectionSpans, size, instructions, List.length_flatMap]
  rwa [Nat.zero_add] at tiles

/-- Cutting the emission at the spans of its sections gives the sections back. -/
theorem map_cut_sectionSpans (e : Emission) :
    (e.sectionSpans.map fun s => s.2.cut e.instructions) = e.sections.map Section.instructions := by
  have cuts := Span.map_cut_tile [] (e.sections.map Section.instructions)
  rw [List.map_map, List.nil_append, ← List.flatMap_def] at cuts
  have spans : (e.sectionSpans.map fun s => s.2.cut e.instructions) =
      (e.sectionSpans.map Prod.snd).map fun s => s.cut e.instructions := by
    rw [List.map_map]
    rfl
  rw [spans, spans_sectionSpans]
  exact cuts

end Emission

namespace Generator

variable (g : Generator) (style : CallStyle) (count : Nat) (c : Catalog)

theorem regular_emit : (g.emit style count c).1.Regular := by
  intro b hb
  rw [blocks_emit] at hb
  obtain ⟨⟨family, i⟩, -, rfl⟩ := List.mem_map.mp hb
  rw [blockOf, Instance.targets_block]
  rcases i.entry.shape.targets_eq with ⟨-, single⟩ | ⟨-, all⟩
  · exact Or.inl single
  · exact Or.inr all

theorem families_sectionsOf (groups : List Group) (g : Generator) :
    (sectionsOf style count groups g).map Section.family = groups.map Group.family := by
  induction groups generalizing g with
  | nil => rfl
  | cons group groups ih => exact congrArg (group.family :: ·) (ih _)

/-- The blocks of drawn instances are as long as their entries ask for. -/
theorem map_length_blockOf (l : List (Family × Entry)) (g : Generator) :
    ((instantiateAll l g).1.map (blockOf style)).map List.length = l.map fun m => m.2.forms := by
  have entries := congrArg (List.map fun m => m.2.forms) (entries_instantiateAll l g)
  rw [List.map_map] at entries ⊢
  rw [← entries]
  refine List.map_congr_left ?_
  intro drawn _
  exact drawn.2.length_block style drawn.1

theorem sizes_sectionsOf (groups : List Group) (g : Generator) :
    ((sectionsOf style count groups g).map fun s => s.instructions.length) =
      groups.map fun group => group.words count := by
  induction groups generalizing g with
  | nil => rfl
  | cons group groups ih =>
      have words : (((instantiateAll (group.scheduled count) g).1.map
          (blockOf style)).flatten).length = group.words count := by
        rw [List.length_flatten, map_length_blockOf, Group.scheduled, List.map_map]
        exact group.sum_forms_schedule count
      rw [sectionsOf, List.map_cons, List.map_cons, ih]
      exact congrArg (· :: _) words

theorem lengths_blocks_emit :
    (g.emit style count c).1.blocks.map List.length =
      (c.schedule count).map fun m => m.2.forms := by
  rw [blocks_emit, instances, map_length_blockOf]

/-- Repetition `r` of entry `k` is the instance of number `count * k + r`. -/
theorem exists_instance {k r : Nat} {family : Family} {e : Entry}
    (h : c.members[k]? = some (family, e)) (hr : r < count) :
    ∃ i, (g.instances count c)[count * k + r]? = some (family, i) ∧ i.entry = e := by
  -- instances are drawn for the scheduled entries one by one, so they share their numbers
  have scheduled : (c.schedule count)[count * k + r]? = some (family, e) :=
    getElem?_flatMap_replicate h hr
  rw [← g.entries_instances, List.getElem?_map, Option.map_eq_some_iff] at scheduled
  obtain ⟨⟨_, i⟩, found, same⟩ := scheduled
  obtain ⟨rfl, rfl⟩ := Prod.mk.inj same
  exact ⟨i, found, rfl⟩

/-- The number of instructions before repetition `r` of entry `k`. -/
theorem sum_lengths_before {k r : Nat} {family : Family} {e : Entry}
    (h : c.members[k]? = some (family, e)) (hr : r < count) :
    (((g.emit style count c).1.blocks.take (count * k + r)).map List.length).sum =
      count * c.formsBefore k + r * e.forms := by
  have before : (c.schedule count).take (count * k + r) =
      (c.members.take k).flatMap (List.replicate count) ++ List.replicate r (family, e) :=
    take_flatMap_replicate h (Nat.le_of_lt hr)
  rw [List.map_take, lengths_blocks_emit, ← List.map_take, before, List.map_append,
    List.sum_append, sum_map_flatMap_replicate, ← c.formsBefore_eq, List.map_replicate,
    List.sum_replicate_nat]

end Generator

namespace Generator

variable (g : Generator) (style : CallStyle) (count : Nat) (c : Catalog)

theorem size_emit : (g.emit style count c).1.size = c.words count := by
  rw [Emission.size, Emission.instructions_eq_flatten, List.length_flatten, lengths_blocks_emit,
    Catalog.schedule, sum_map_flatMap_replicate, Catalog.words, Entry.words_eq,
    ← c.map_snd_members, List.map_map]
  rfl

theorem getElem?_emit {k r j : Nat} {family : Family} {e : Entry} {t : Option Target}
    (h : c.members[k]? = some (family, e)) (hr : r < count) (hj : e.shape.targets[j]? = some t) :
    ∃ i, (g.instances count c)[count * k + r]? = some (family, i) ∧ i.entry = e ∧
      (g.emit style count c).1.instructions[count * c.formsBefore k + r * e.forms + j]? =
        some ⟨family, e.assemblyName, i.call style t, i.assembly t, t⟩ := by
  obtain ⟨i, drawn, rfl⟩ := exists_instance g count c h hr
  refine ⟨i, drawn, rfl, ?_⟩
  have block : (g.emit style count c).1.blocks[count * k + r]? = some (i.block style family) := by
    rw [blocks_emit, List.getElem?_map, drawn]
    rfl
  have form := i.getElem?_block style family hj
  have inside : j < (i.block style family).length := (List.getElem?_eq_some_iff.mp form).1
  rw [← sum_lengths_before g style count c h hr, Emission.instructions_eq_flatten,
    getElem?_flatten_take block inside, form]

end Generator

/-- A jump that has a label and no operands. -/
def bareJump : Entry :=
  ⟨⟨"j", by decide⟩, Shape.labelled .bare .jump, by decide⟩

/-- A catalog of one jump. -/
def jumpCatalog : Catalog :=
  ⟨[⟨.abs, [bareJump]⟩]⟩

end EncoderVectors
