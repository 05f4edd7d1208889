import EncoderVectors.Proofs.Catalog.Names
import EncoderVectors.Proofs.Emission.Trace
import EncoderVectors.Proofs.Fixture.Pairing

/-!
# Calls and assembly lines correspond

Over a catalog whose names can be told apart a call stands for one assembly line, and a line for one
call. Either text tells the name that it opens with, and so the pattern of its entry; the readers for
that pattern then give the values, the label, the ordering and the rounding mode
(`Catalog.Unambiguous.eq_of_call_eq`, `Catalog.Unambiguous.eq_of_assembly_eq`). The built-in catalog
is such a catalog, however it is restricted and whatever stands in front of calls and of enumerated
arguments: `Generator.call_eq_iff_assembly_eq`.
-/

set_option autoImplicit false

namespace EncoderVectors

namespace Instance

/-- An instance is known by its entry and its values. -/
theorem eq_of_values_eq {i i' : Instance} (entry : i.entry = i'.entry)
    (operands : i.operands = i'.operands) (barriers : i.barriers? = i'.barriers?) : i = i' := by
  obtain ⟨e, filling, fits⟩ := i
  obtain ⟨e', filling', fits'⟩ := i'
  obtain rfl : e = e' := entry
  have same : filling = filling' := by
    cases filling with
    | operands values =>
        cases filling' with
        | operands values' => exact congrArg Filling.operands operands
        | barriers p s => cases barriers
    | barriers p s =>
        cases filling' with
        | operands values' => cases barriers
        | barriers p' s' =>
            obtain ⟨rfl, rfl⟩ := Prod.mk.inj (Option.some.inj barriers)
            rfl
  subst same
  rfl

section Texts

variable {i i' : Instance} {style : CallStyle} {t t' : Option Target}

/-- Calls that are the same open with the same name. -/
theorem callName_eq_of_call_eq (h : i.call style t = i'.call style t') :
    i.entry.callName = i'.entry.callName := by
  have name (i : Instance) (t : Option Target) :
      ((i.call style t).toList.drop style.callPrefix.toList.length).takeWhile (· ≠ '(') =
        i.entry.callName.toList := by
    -- the first bracket after the front ends the name, whatever the front holds
    have text : (i.call style t).toList = style.callPrefix.toList ++ (i.entry.callName.toList ++
        '(' :: ((String.intercalate ", " (i.callArguments style t)).toList ++ ");".toList)) := by
      simp [call]
    have absent : '(' ∉ i.entry.callName.toList := i.entry.not_mem_callName (by decide) (by decide)
    rw [text, List.drop_left, (Text.span_mark absent _).1]
  apply String.toList_injective
  rw [← name i t, ← name i' t', h]

/-- Assembly lines that are the same open with the same name. -/
theorem assemblyName_eq_of_assembly_eq (h : i.assembly t = i'.assembly t') :
    i.entry.assemblyName = i'.entry.assemblyName := by
  have name (i : Instance) (t : Option Target) :
      (i.assembly t).toList.takeWhile (· ≠ '\t') = i.entry.assemblyName.toList := by
    have absent : '\t' ∉ i.entry.assemblyName.toList :=
      i.entry.not_mem_assemblyName (by decide) (by decide)
    unfold assembly
    split
    · -- a line without operands is all name
      exact (Text.span_no_mark absent).1
    · have text : (i.entry.assemblyName ++ "\t" ++
          String.intercalate ", " (i.assemblyOperands t)).toList = i.entry.assemblyName.toList ++
            '\t' :: (String.intercalate ", " (i.assemblyOperands t)).toList := by
        simp
      rw [text, (Text.span_mark absent _).1]
  apply String.toList_injective
  rw [← name i t, ← name i' t', h]

end Texts

end Instance

namespace Catalog.Unambiguous

variable {c : Catalog} {family family' : Family} {i i' : Instance} {t t' : Option Target}

/-- Two forms that say the same come from one instance and have one target. -/
theorem eq_of_reading_eq (h : i.reading t = i'.reading t') (entry : i.entry = i'.entry) :
    i = i' ∧ t = t' :=
  ⟨Instance.eq_of_values_eq entry (congrArg Reading.operands h) (congrArg Reading.barriers h),
    congrArg Reading.target h⟩

/-- A call tells its family, its instance and its target. -/
theorem eq_of_call_eq (names : c.Unambiguous) (style : CallStyle)
    (hm : (family, i.entry) ∈ c.members) (hm' : (family', i'.entry) ∈ c.members)
    (ht : t ∈ i.entry.shape.targets) (ht' : t' ∈ i'.entry.shape.targets)
    (same : i.call style t = i'.call style t') : family = family' ∧ i = i' ∧ t = t' := by
  have name := Instance.callName_eq_of_call_eq same
  have pattern := names.pattern_eq_of_callName_eq hm hm' name
  -- both calls are read for the same pattern, and say the same
  have read := i.readCall_call style (i.entry.shape.isSome_of_mem_targets ht)
  have read' := i'.readCall_call style (i'.entry.shape.isSome_of_mem_targets ht')
  rw [pattern, same, read'] at read
  have reading := (Option.some.inj read).symm
  -- the ordering that they say tells which of the entries of that name it is
  have member := names.eq_of_callName_eq hm hm' name (congrArg Reading.ordering reading)
  obtain ⟨sameFamily, entry⟩ := Prod.mk.inj member
  exact ⟨sameFamily, eq_of_reading_eq reading entry⟩

/-- An assembly line tells its family, its instance and its target. -/
theorem eq_of_assembly_eq (names : c.Unambiguous)
    (hm : (family, i.entry) ∈ c.members) (hm' : (family', i'.entry) ∈ c.members)
    (ht : t ∈ i.entry.shape.targets) (ht' : t' ∈ i'.entry.shape.targets)
    (same : i.assembly t = i'.assembly t') : family = family' ∧ i = i' ∧ t = t' := by
  -- here the name tells the entry at once, since the ordering is part of it
  have member := names.eq_of_assemblyName_eq hm hm' (Instance.assemblyName_eq_of_assembly_eq same)
  obtain ⟨sameFamily, entry⟩ := Prod.mk.inj member
  have read := i.readAssembly_assembly (i.entry.shape.isSome_of_mem_targets ht)
  have read' := i'.readAssembly_assembly (i'.entry.shape.isSome_of_mem_targets ht')
  rw [entry, same, read'] at read
  exact ⟨sameFamily, eq_of_reading_eq (Option.some.inj read).symm entry⟩

end Catalog.Unambiguous

namespace Generator

/-- Over one catalog of names that can be told apart, calls and assembly lines correspond. -/
theorem correspond_of_mem_trace {c : Catalog} (names : c.Unambiguous) {style : CallStyle}
    {g g' : Generator} {count count' : Nat} {a b : Catalog} (ha : a.members ⊆ c.members)
    (hb : b.members ⊆ c.members) {i i' : Instance} {ins ins' : Instruction}
    (h : (i, ins) ∈ g.trace style count a) (h' : (i', ins') ∈ g'.trace style count' b) :
    (ins.call = ins'.call ↔ ins.assembly = ins'.assembly) ∧
      (ins.call = ins'.call → ins.family = ins'.family ∧ i = i' ∧ ins.target = ins'.target) := by
  obtain ⟨member, target, call, assembly⟩ := exists_form_of_mem_trace g style count a h
  obtain ⟨member', target', call', assembly'⟩ := exists_form_of_mem_trace g' style count' b h'
  have ofCall : ins.call = ins'.call →
      ins.family = ins'.family ∧ i = i' ∧ ins.target = ins'.target := by
    intro same
    rw [call, call'] at same
    exact names.eq_of_call_eq style (ha member) (hb member') target target' same
  refine ⟨⟨?_, ?_⟩, ofCall⟩
  · intro same
    obtain ⟨-, instances, targets⟩ := ofCall same
    rw [assembly, assembly', instances, targets]
  · intro same
    rw [assembly, assembly'] at same
    obtain ⟨-, instances, targets⟩ :=
      names.eq_of_assembly_eq (ha member) (hb member') target target' same
    rw [call, call', instances, targets]

/-- The vectors of a fixture come from traced instructions. -/
theorem exists_trace_of_mem_vectors {g : Generator} {style : CallStyle} {count : Nat} {c : Catalog}
    {words : List UInt32} {f : Fixture}
    (paired : Fixture.pair (g.emit style count c).1 words = .ok f) {v : TestVector}
    (hv : v ∈ f.vectors) :
    ∃ i ins, (i, ins) ∈ g.trace style count c ∧ v.call = ins.call ∧ v.assembly = ins.assembly := by
  obtain ⟨-, -, rfl⟩ := Fixture.pair_eq_ok_iff.mp paired
  rw [← List.map_uncurry_zip_eq_zipWith] at hv
  obtain ⟨⟨ins, word⟩, beside, rfl⟩ := List.mem_map.mp hv
  obtain ⟨i, traced⟩ := exists_trace_of_mem_instructions (List.of_mem_zip beside).1
  exact ⟨i, ins, traced, rfl, rfl⟩

/-- Of any two instructions that are emitted from the built-in catalog, restricted to any families,
the calls are the same exactly when the assembly lines are; and then both come from the same member of
the catalog, with the same operands, the same fence sets and the same label. So no fixtures ask for two
assembly lines of one call. -/
theorem call_eq_iff_assembly_eq (style : CallStyle) (g g' : Generator) (count count' : Nat)
    (families families' : List Family) :
    ((g.trace style count (Catalog.rv64g.restrict families)).map Prod.snd =
        (g.emit style count (Catalog.rv64g.restrict families)).1.instructions ∧
      (g'.trace style count' (Catalog.rv64g.restrict families')).map Prod.snd =
        (g'.emit style count' (Catalog.rv64g.restrict families')).1.instructions) ∧
    (∀ i ins i' ins', (i, ins) ∈ g.trace style count (Catalog.rv64g.restrict families) →
      (i', ins') ∈ g'.trace style count' (Catalog.rv64g.restrict families') →
        (ins.call = ins'.call ↔ ins.assembly = ins'.assembly) ∧
        (ins.call = ins'.call → (ins.family, i.entry) = (ins'.family, i'.entry) ∧
          i.operands = i'.operands ∧ i.barriers? = i'.barriers? ∧ ins.target = ins'.target)) ∧
    ∀ words words' f f',
      Fixture.pair (g.emit style count (Catalog.rv64g.restrict families)).1 words = .ok f →
      Fixture.pair (g'.emit style count' (Catalog.rv64g.restrict families')).1 words' = .ok f' →
        ∀ v ∈ f.vectors, ∀ v' ∈ f'.vectors, v.call = v'.call → v.assembly = v'.assembly := by
  have names := Catalog.unambiguous_rv64g
  have sub := Catalog.rv64g.members_restrict_subset families
  have sub' := Catalog.rv64g.members_restrict_subset families'
  refine ⟨⟨instructions_trace _ _ _ _, instructions_trace _ _ _ _⟩, ?_, ?_⟩
  · intro i ins i' ins' h h'
    obtain ⟨texts, origin⟩ := correspond_of_mem_trace names sub sub' h h'
    refine ⟨texts, ?_⟩
    intro same
    obtain ⟨family, rfl, target⟩ := origin same
    exact ⟨Prod.ext family rfl, rfl, rfl, target⟩
  · intro words words' f f' paired paired' v hv v' hv' same
    obtain ⟨i, ins, h, call, assembly⟩ := exists_trace_of_mem_vectors paired hv
    obtain ⟨i', ins', h', call', assembly'⟩ := exists_trace_of_mem_vectors paired' hv'
    rw [call, call'] at same
    rw [assembly, assembly']
    exact (correspond_of_mem_trace names sub sub' h h').1.mp same

/-- Control: a jump of one run and one of another have the same call, so they are the
same jump to the same label. -/
theorem call_eq_iff_assembly_eq_jumps :
    ∃ i ins i' ins',
      ((ofSeed 0).trace {} 1 (Catalog.rv64g.restrict [.abs]))[4]? = some (i, ins) ∧
      ((ofSeed 7).trace {} 2 (Catalog.rv64g.restrict [.abs, .op]))[10]? = some (i', ins') ∧
      ins.call = "jal(forth);" ∧ ins'.call = "jal(forth);" ∧
      ins.assembly = ins'.assembly ∧ i.entry = i'.entry ∧ ins.target = ins'.target := by
  obtain ⟨⟨i, ins⟩, h⟩ := Option.isSome_iff_exists.mp
    (by decide +kernel : ((ofSeed 0).trace {} 1 (Catalog.rv64g.restrict [.abs]))[4]?.isSome)
  obtain ⟨⟨i', ins'⟩, h'⟩ := Option.isSome_iff_exists.mp
    (by decide +kernel : ((ofSeed 7).trace {} 2 (Catalog.rv64g.restrict [.abs, .op]))[10]?.isSome)
  have call : (((ofSeed 0).trace {} 1 (Catalog.rv64g.restrict [.abs]))[4]?.map fun p => p.2.call) =
      some "jal(forth);" := by decide +kernel
  have call' : (((ofSeed 7).trace {} 2 (Catalog.rv64g.restrict [.abs, .op]))[10]?.map
      fun p => p.2.call) = some "jal(forth);" := by decide +kernel
  rw [h, Option.map_some, Option.some_inj] at call
  rw [h', Option.map_some, Option.some_inj] at call'
  obtain ⟨texts, origin⟩ := (call_eq_iff_assembly_eq {} (ofSeed 0) (ofSeed 7) 1 2 [.abs]
    [.abs, .op]).2.1 i ins i' ins' (List.mem_of_getElem? h) (List.mem_of_getElem? h')
  have same : ins.call = ins'.call := call.trans call'.symm
  exact ⟨i, ins, i', ins', h, h', call, call', texts.mp same, congrArg Prod.snd (origin same).1,
    (origin same).2.2.2⟩

end Generator

end EncoderVectors
