import EncoderVectors.Emission.Generate

/-!
# What is drawn, and what is emitted of it

An emission is made of the instances that a generator draws when it is asked for them one after
another: each entry of the catalog as often as asked, before the next. `Generator.instances` draws
them that way. The blocks of an emission are their blocks (`Generator.blocks_emit`), its sections cut
the blocks at the ends of the groups (`Generator.emit_fst`), and the generator is left where the last
draw leaves it (`Generator.emit_snd`).

The trace of an emission keeps beside every instruction the instance it was written from.
-/

set_option autoImplicit false

namespace EncoderVectors

/-- The entries of a catalog in order of drawing, with their families: each entry as often as asked,
before the next. -/
def Catalog.schedule (c : Catalog) (count : Nat) : List (Family × Entry) :=
  c.members.flatMap (List.replicate count)

/-- The entries of a group in order of drawing, with the family of the group. -/
def Group.scheduled (g : Group) (count : Nat) : List (Family × Entry) :=
  (g.schedule count).map fun e => (g.family, e)

theorem Catalog.schedule_eq_flatMap (c : Catalog) (count : Nat) :
    c.schedule count = c.groups.flatMap fun g => g.scheduled count := by
  simp [schedule, members, Group.scheduled, Group.schedule, List.flatMap_assoc, List.map_flatMap,
    List.flatMap_map]

/-- The block of a drawn instance. -/
def blockOf (style : CallStyle) (drawn : Family × Instance) : Block :=
  drawn.2.block style drawn.1

namespace Generator

/-- Draws an instance for each of the entries, one after another. -/
def instantiateAll : List (Family × Entry) → Generator → List (Family × Instance) × Generator
  | [], g => ([], g)
  | (family, e) :: rest, g =>
      let (i, g) := g.instantiate e
      let (drawn, g) := instantiateAll rest g
      ((family, i) :: drawn, g)

/-- The instances that the generator draws for a catalog. -/
def instances (g : Generator) (count : Nat) (c : Catalog) : List (Family × Instance) :=
  (instantiateAll (c.schedule count) g).1

/-- The instructions of an emission, each with the instance it is written from. -/
def trace (g : Generator) (style : CallStyle) (count : Nat) (c : Catalog) :
    List (Instance × Instruction) :=
  (g.instances count c).flatMap fun drawn => (blockOf style drawn).map fun ins => (drawn.2, ins)

/-! ## One after another -/

theorem instantiateAll_append (a b : List (Family × Entry)) (g : Generator) :
    instantiateAll (a ++ b) g =
      ((instantiateAll a g).1 ++ (instantiateAll b (instantiateAll a g).2).1,
        (instantiateAll b (instantiateAll a g).2).2) := by
  induction a generalizing g with
  | nil => rfl
  | cons m a ih =>
      obtain ⟨family, e⟩ := m
      simp only [List.cons_append, instantiateAll, ih]

/-- Whatever is drawn, it is drawn for the entries asked for, in their order. -/
theorem entries_instantiateAll (l : List (Family × Entry)) (g : Generator) :
    (instantiateAll l g).1.map (fun drawn => (drawn.1, drawn.2.entry)) = l := by
  induction l generalizing g with
  | nil => rfl
  | cons m l ih =>
      obtain ⟨family, e⟩ := m
      exact congrArg ((family, e) :: ·) (ih (g.instantiate e).2)

theorem seed_instantiateAll (l : List (Family × Entry)) (g : Generator) :
    (instantiateAll l g).2.seed = g.seed := by
  induction l generalizing g with
  | nil => rfl
  | cons m l ih => exact ih _

theorem entries_instances (g : Generator) (count : Nat) (c : Catalog) :
    (g.instances count c).map (fun drawn => (drawn.1, drawn.2.entry)) = c.schedule count :=
  entries_instantiateAll _ g

/-! ## Emitting -/

/-- Emitting entries draws them one after another and writes the block of each. -/
theorem run_emit_entries (style : CallStyle) (family : Family) (es : List Entry) (g : Generator) :
    (es.mapM (Entry.emit style family)).run g.stream =
      ((instantiateAll (es.map fun e => (family, e)) g).1.map (blockOf style),
        (instantiateAll (es.map fun e => (family, e)) g).2.stream) := by
  induction es generalizing g with
  | nil => rfl
  | cons e es ih =>
      -- the stream that the first draw leaves is the one the others start from
      have step : ((e :: es).mapM (Entry.emit style family)).run g.stream =
          (blockOf style (family, (g.instantiate e).1) ::
              ((es.mapM (Entry.emit style family)).run (g.instantiate e).2.stream).1,
            ((es.mapM (Entry.emit style family)).run (g.instantiate e).2.stream).2) := by
        rw [List.mapM_cons]
        rfl
      rw [step, ih (g.instantiate e).2]
      rfl

/-- The section of a group holds the blocks of the instances drawn for it. -/
theorem run_emit_group (style : CallStyle) (count : Nat) (group : Group) (g : Generator) :
    (group.emit style count).run g.stream =
      (⟨group.family, (instantiateAll (group.scheduled count) g).1.map (blockOf style)⟩,
        (instantiateAll (group.scheduled count) g).2.stream) := by
  have step : (group.emit style count).run g.stream =
      (⟨group.family,
          (((group.schedule count).mapM (Entry.emit style group.family)).run g.stream).1⟩,
        (((group.schedule count).mapM (Entry.emit style group.family)).run g.stream).2) := rfl
  rw [step, run_emit_entries]
  rfl

/-- The sections of some groups, emitted one after another. -/
def sectionsOf (style : CallStyle) (count : Nat) : List Group → Generator → List Section
  | [], _ => []
  | group :: groups, g =>
      ⟨group.family, (instantiateAll (group.scheduled count) g).1.map (blockOf style)⟩ ::
        sectionsOf style count groups (instantiateAll (group.scheduled count) g).2

theorem run_emit_groups (style : CallStyle) (count : Nat) (groups : List Group) (g : Generator) :
    (groups.mapM (Group.emit style count)).run g.stream =
      (sectionsOf style count groups g,
        (instantiateAll (groups.flatMap fun group => group.scheduled count) g).2.stream) := by
  induction groups generalizing g with
  | nil => rfl
  | cons group groups ih =>
      have step : ((group :: groups).mapM (Group.emit style count)).run g.stream =
          (((group.emit style count).run g.stream).1 ::
              ((groups.mapM (Group.emit style count)).run
                ((group.emit style count).run g.stream).2).1,
            ((groups.mapM (Group.emit style count)).run
              ((group.emit style count).run g.stream).2).2) := by
        rw [List.mapM_cons]
        rfl
      -- drawing for all groups is drawing for the first, then for the others
      rw [step, run_emit_group, ih (instantiateAll (group.scheduled count) g).2,
        List.flatMap_cons, instantiateAll_append]
      rfl

/-- What emitting a catalog yields: the sections of its groups under the seed of the generator. -/
theorem emit_fst (g : Generator) (style : CallStyle) (count : Nat) (c : Catalog) :
    (g.emit style count c).1 = ⟨g.seed, sectionsOf style count c.groups g⟩ := by
  have step : (g.emit style count c).1 =
      ⟨g.seed, ((c.groups.mapM (Group.emit style count)).run g.stream).1⟩ := rfl
  rw [step, run_emit_groups]

/-- Emitting a catalog leaves the generator where drawing its instances one by one does. -/
theorem emit_snd (g : Generator) (style : CallStyle) (count : Nat) (c : Catalog) :
    (g.emit style count c).2 = (instantiateAll (c.schedule count) g).2 := by
  have step : (g.emit style count c).2 =
      { g with stream := ((c.groups.mapM (Group.emit style count)).run g.stream).2 } := rfl
  -- only the stream moves on, so the two generators have the same seed
  have seed := seed_instantiateAll (c.schedule count) g
  rw [step, run_emit_groups, ← c.schedule_eq_flatMap]
  rw [← seed]

/-! ## Blocks and sections -/

theorem blocks_sectionsOf (style : CallStyle) (count : Nat) (groups : List Group) (g : Generator) :
    (sectionsOf style count groups g).flatMap Section.blocks =
      (instantiateAll (groups.flatMap fun group => group.scheduled count) g).1.map
        (blockOf style) := by
  induction groups generalizing g with
  | nil => rfl
  | cons group groups ih =>
      rw [List.flatMap_cons, instantiateAll_append, List.map_append, ← ih]
      rfl

/-- The blocks of an emission are those of the instances drawn one by one. -/
theorem blocks_emit (g : Generator) (style : CallStyle) (count : Nat) (c : Catalog) :
    (g.emit style count c).1.blocks = (g.instances count c).map (blockOf style) := by
  rw [emit_fst, instances, c.schedule_eq_flatMap]
  exact blocks_sectionsOf style count c.groups g

end Generator

/-- The instructions of an emission are those of its blocks. -/
theorem Emission.instructions_eq_flatten (e : Emission) : e.instructions = e.blocks.flatten := by
  unfold instructions blocks
  induction e.sections with
  | nil => rfl
  | cons s sections ih => simp [Section.instructions, ih]

/-- The instructions of a block are the forms of its instance, one for each target. -/
theorem Instance.mem_block_iff {i : Instance} {style : CallStyle} {family : Family}
    {ins : Instruction} : ins ∈ i.block style family ↔
      ∃ t ∈ i.entry.shape.targets,
        ins = ⟨family, i.entry.assemblyName, i.call style t, i.assembly t, t⟩ := by
  simp [block, forms, form, eq_comm]

namespace Generator

theorem instructions_emit (g : Generator) (style : CallStyle) (count : Nat) (c : Catalog) :
    (g.emit style count c).1.instructions = (g.instances count c).flatMap (blockOf style) := by
  rw [Emission.instructions_eq_flatten, blocks_emit, List.flatMap_def]

/-- The trace of an emission is an annotation of its instructions. -/
theorem instructions_trace (g : Generator) (style : CallStyle) (count : Nat) (c : Catalog) :
    (g.trace style count c).map Prod.snd = (g.emit style count c).1.instructions := by
  simp [trace, instructions_emit, List.map_flatMap, Function.comp_def]

theorem exists_trace_of_mem_instructions {g : Generator} {style : CallStyle} {count : Nat}
    {c : Catalog} {ins : Instruction} (h : ins ∈ (g.emit style count c).1.instructions) :
    ∃ i, (i, ins) ∈ g.trace style count c := by
  rw [← instructions_trace] at h
  obtain ⟨⟨i, ins'⟩, traced, same⟩ := List.mem_map.mp h
  obtain rfl : ins' = ins := same
  exact ⟨i, traced⟩

/-- Every traced instruction is one of the block of an instance that was drawn. -/
theorem exists_block_of_mem_trace (g : Generator) (style : CallStyle) (count : Nat) (c : Catalog)
    {i : Instance} {ins : Instruction} (h : (i, ins) ∈ g.trace style count c) :
    ∃ family, (family, i) ∈ g.instances count c ∧ ins ∈ i.block style family := by
  obtain ⟨drawn, hd, inside⟩ := List.mem_flatMap.mp h
  obtain ⟨ins', hins, same⟩ := List.mem_map.mp inside
  obtain ⟨rfl, rfl⟩ := Prod.mk.inj same
  exact ⟨drawn.1, hd, hins⟩

/-- Instances are drawn for the members of the catalog. -/
theorem mem_members_of_mem_instances (g : Generator) (count : Nat) (c : Catalog) {family : Family}
    {i : Instance} (h : (family, i) ∈ g.instances count c) : (family, i.entry) ∈ c.members := by
  have scheduled : (family, i.entry) ∈ c.schedule count := by
    rw [← g.entries_instances count c]
    exact List.mem_map_of_mem h
  obtain ⟨m, hm, repeated⟩ := List.mem_flatMap.mp scheduled
  rw [List.eq_of_mem_replicate repeated]
  exact hm

/-- Where a traced instruction comes from. -/
theorem exists_form_of_mem_trace (g : Generator) (style : CallStyle) (count : Nat) (c : Catalog)
    {i : Instance} {ins : Instruction} (h : (i, ins) ∈ g.trace style count c) :
    (ins.family, i.entry) ∈ c.members ∧ ins.target ∈ i.entry.shape.targets ∧
      ins.call = i.call style ins.target ∧ ins.assembly = i.assembly ins.target := by
  obtain ⟨family, drawn, inside⟩ := exists_block_of_mem_trace g style count c h
  obtain ⟨t, ht, rfl⟩ := Instance.mem_block_iff.mp inside
  exact ⟨mem_members_of_mem_instances g count c drawn, ht, rfl, rfl⟩

end Generator

end EncoderVectors
