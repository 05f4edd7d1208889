import EncoderVectors.Catalog.Reach
import EncoderVectors.Proofs.Emission.Layout

/-!
# The reach check and what is emitted

The reach check never looks at an emission: it counts bytes over the entries of the catalog and skips
the entries without a label in bulk. Here it is compared with the distances that instructions really
have from their labels. Between the two stands the plan of a catalog, an entry and a target for every
word: the check finds the first word of the plan that lies too far from its label
(`Catalog.misfit?_eq`), and an emission follows the plan word by word (`Generator.map_trace`).
-/

set_option autoImplicit false

namespace EncoderVectors

/-! ## The plan of a catalog -/

/-- The words that one instance of an entry is emitted as: the entry with each of its targets. -/
def Entry.plan (e : Entry) : List (Entry × Option Target) :=
  e.shape.targets.map fun t => (e, t)

/-- The words that entries are emitted as, with `count` instances of each. -/
def Entry.planAll (count : Nat) (es : List Entry) : List (Entry × Option Target) :=
  (es.flatMap (List.replicate count)).flatMap Entry.plan

/-- What is wrong with a planned word at a position, in a body that ends at `stop`. -/
def misfitAt (stop : Int) (word : (Entry × Option Target) × Nat) : Option Misfit :=
  match word.1.1.shape.transfer, word.1.2 with
  | some x, some t =>
      let offset := t.offset stop (word.2 * wordBytes : Nat)
      if x.reach.contains offset then none else some ⟨word.1.1.assemblyName, offset, x.reach⟩
  | _, _ => none

/-- What is wrong with the first word that does not reach its label; the first word is at `start`. -/
def firstMisfit (stop : Int) (words : List (Entry × Option Target)) (start : Nat) : Option Misfit :=
  (words.zipIdx start).findSome? (misfitAt stop)

theorem firstMisfit_append (stop : Int) (a b : List (Entry × Option Target)) (start : Nat) :
    firstMisfit stop (a ++ b) start =
      (firstMisfit stop a start).or (firstMisfit stop b (start + a.length)) := by
  rw [firstMisfit, List.zipIdx_append, List.findSome?_append]
  rfl

/-! ## The check walks the plan -/

/-- The byte offset of a position that lies `n` words further on. -/
theorem offset_add_words (start n : Nat) :
    ((start * wordBytes : Nat) : Int) + (n : Int) * wordBytes = ((start + n) * wordBytes : Nat) := by
  rw [Nat.add_mul, Int.natCast_add, Int.natCast_mul n]

section Walk

variable (stop : Int) {e : Entry} {x : Transfer}

/-- The forms for some targets are searched in the order of the targets. -/
theorem Transfer.misfit?_eq (h : e.shape.transfer = some x) (ts : List Target) (start : Nat) :
    (x.misfit? stop ts (start * wordBytes : Nat)).map (fun o => ⟨e.assemblyName, o, x.reach⟩) =
      firstMisfit stop (ts.map fun t => (e, some t)) start := by
  induction ts generalizing start with
  | nil => rfl
  | cons t ts ih =>
      have next : ((start * wordBytes : Nat) : Int) + wordBytes = ((start + 1) * wordBytes : Nat) := by
        rw [← offset_add_words, Int.natCast_one, Int.one_mul]
      rw [misfit?, List.map_cons, firstMisfit, List.zipIdx_cons, List.findSome?_cons]
      by_cases near : x.reach.contains (t.offset stop (start * wordBytes : Nat)) = true
      · simp only [misfitAt, h, near, if_true, next]
        exact ih (start + 1)
      · simp only [misfitAt, h, near]
        rfl

/-- The instances of an entry are searched one after another. -/
theorem Transfer.misfitAmong?_eq (h : e.shape.transfer = some x) (count start : Nat) :
    (x.misfitAmong? stop count (start * wordBytes : Nat)).map
        (fun o => ⟨e.assemblyName, o, x.reach⟩) =
      firstMisfit stop ((List.replicate count e).flatMap Entry.plan) start := by
  have plan : e.plan = Target.all.map fun t => (e, some t) := by
    simp [Entry.plan, Shape.targets, h]
  induction count generalizing start with
  | zero => rfl
  | succ count ih =>
      have next : ((start * wordBytes : Nat) : Int) + Target.all.length * wordBytes =
          ((start + e.plan.length) * wordBytes : Nat) := by
        rw [← offset_add_words, plan, List.length_map]
      rw [misfitAmong?, List.replicate_succ, List.flatMap_cons, firstMisfit_append, next, ← ih,
        plan, ← misfit?_eq stop h]
      cases x.misfit? stop Target.all (start * wordBytes : Nat) with
      | none => rfl
      | some offset => rfl

/-- An entry without a label has nothing to reach. -/
theorem firstMisfit_of_transfer_eq_none (h : e.shape.transfer = none) (count start : Nat) :
    firstMisfit stop ((List.replicate count e).flatMap Entry.plan) start = none := by
  rw [firstMisfit, List.findSome?_eq_none_iff]
  rintro ⟨⟨entry, t⟩, p⟩ hw
  have among : (entry, t) ∈ (List.replicate count e).flatMap Entry.plan :=
    List.fst_mem_of_mem_zipIdx hw
  obtain ⟨e', he', ht⟩ := List.mem_flatMap.mp among
  obtain rfl := List.eq_of_mem_replicate he'
  obtain ⟨_, _, same⟩ := List.mem_map.mp ht
  obtain rfl : e' = entry := congrArg Prod.fst same
  simp only [misfitAt, h]

end Walk

theorem Entry.length_plan (e : Entry) : e.plan.length = e.forms :=
  List.length_map _

theorem Catalog.misfitFrom?_eq (count : Nat) (stop : Int) (es : List Entry) (start : Nat) :
    misfitFrom? count stop es (start * wordBytes : Nat) =
      firstMisfit stop (Entry.planAll count es) start := by
  induction es generalizing start with
  | nil => rfl
  | cons e es ih =>
      have length : ((List.replicate count e).flatMap Entry.plan).length = e.forms * count := by
        rw [List.length_flatMap, List.map_replicate, List.sum_replicate_nat, e.length_plan,
          Nat.mul_comm]
      have next : ((start * wordBytes : Nat) : Int) + (e.forms * count : Nat) * wordBytes =
          ((start + ((List.replicate count e).flatMap Entry.plan).length) * wordBytes : Nat) := by
        rw [← offset_add_words, length]
      have plan : Entry.planAll count (e :: es) =
          (List.replicate count e).flatMap Entry.plan ++ Entry.planAll count es := by
        rw [Entry.planAll, List.flatMap_cons, List.flatMap_append]
        rfl
      rw [plan, firstMisfit_append, ← ih, ← next, misfitFrom?]
      cases h : e.shape.transfer with
      | none =>
          -- the check jumps over these words, the plan holds them and finds nothing
          rw [firstMisfit_of_transfer_eq_none stop h, Option.none_or]
      | some x =>
          rw [← Transfer.misfitAmong?_eq stop h]
          cases hx : x.misfitAmong? stop count (start * wordBytes : Nat) with
          | none => simp only [hx, Option.map_none, Option.none_or]
          | some offset => simp only [hx, Option.map_some, Option.some_or]

/-- The check finds the first word of the plan that lies too far from its label. -/
theorem Catalog.misfit?_eq (c : Catalog) (count : Nat) :
    c.misfit? count =
      firstMisfit (c.words count * wordBytes : Nat) (Entry.planAll count c.entries) 0 := by
  have walk := misfitFrom?_eq count (c.words count * wordBytes : Nat) c.entries 0
  rwa [Nat.zero_mul] at walk

/-! ## Positions in the plan -/

theorem firstMisfit_eq_none_iff {stop : Int} {words : List (Entry × Option Target)} :
    firstMisfit stop words 0 = none ↔
      ∀ p w, words[p]? = some w → misfitAt stop (w, p) = none := by
  rw [firstMisfit, List.findSome?_eq_none_iff]
  constructor
  · intro h p w found
    exact h (w, p) (List.mk_mem_zipIdx_iff_getElem?.mpr found)
  · rintro h ⟨w, p⟩ hw
    exact h p w (List.mk_mem_zipIdx_iff_getElem?.mp hw)

/-- A search finds what stands at the least position that answers it. -/
theorem exists_of_firstMisfit {stop : Int} {words : List (Entry × Option Target)} {m : Misfit}
    (h : firstMisfit stop words 0 = some m) :
    ∃ p w, words[p]? = some w ∧ misfitAt stop (w, p) = some m ∧
      ∀ q < p, ∀ w', words[q]? = some w' → misfitAt stop (w', q) = none := by
  -- the numbers stand in order, so what was searched in vain are the smaller positions
  obtain ⟨before, ⟨w, p⟩, after, split, found, clear⟩ := List.findSome?_eq_some_iff.mp h
  have length : before.length = p := by
    have last := congrArg (fun l => l[before.length]?) split
    simp [List.getElem?_zipIdx] at last
    omega
  subst length
  refine ⟨before.length, w, ?_, found, ?_⟩
  · apply List.mk_mem_zipIdx_iff_getElem?.mp
    rw [split]
    exact List.mem_append_right _ List.mem_cons_self
  · intro q hq w' hw'
    apply clear
    have at_q : (words.zipIdx 0)[q]? = some (w', q) := by
      simp [List.getElem?_zipIdx, hw']
    rw [split, List.getElem?_append_left hq] at at_q
    exact List.mem_of_getElem? at_q

/-! ## The emission follows the plan -/

namespace Generator

variable (g : Generator) (style : CallStyle) (count : Nat) (c : Catalog)

theorem map_trace :
    (g.trace style count c).map (fun w => (w.1.entry, w.2.target)) =
      Entry.planAll count c.entries := by
  have block : ∀ drawn : Family × Instance,
      ((blockOf style drawn).map fun ins => (drawn.2, ins)).map
        (fun w => (w.1.entry, w.2.target)) = drawn.2.entry.plan := by
    intro drawn
    rw [Entry.plan, ← drawn.2.targets_block style drawn.1, List.map_map, List.map_map]
    rfl
  have entries : c.entries.flatMap (List.replicate count) =
      ((g.instances count c).map fun drawn => (drawn.1, drawn.2.entry)).map Prod.snd := by
    rw [entries_instances, Catalog.schedule, List.map_flatMap, ← c.map_snd_members,
      List.flatMap_map]
    simp only [List.map_replicate]
  rw [trace, List.map_flatMap, Entry.planAll, entries, List.map_map, List.flatMap_map]
  simp only [block]
  rfl

/-- Every instruction bears the assembler name of the entry it comes from. -/
theorem mnemonic_of_mem_trace {i : Instance} {ins : Instruction}
    (h : (i, ins) ∈ g.trace style count c) : ins.mnemonic = i.entry.assemblyName := by
  obtain ⟨family, -, hins⟩ := exists_block_of_mem_trace g style count c h
  obtain ⟨f, -, rfl⟩ := List.mem_map.mp hins
  rfl

/-- Only a control transfer is emitted with a target. -/
theorem exists_transfer_of_mem_trace {i : Instance} {ins : Instruction} {t : Target}
    (h : (i, ins) ∈ g.trace style count c) (ht : ins.target = some t) :
    ∃ x, i.entry.shape.transfer = some x := by
  obtain ⟨family, -, hins⟩ := exists_block_of_mem_trace g style count c h
  have among : ins.target ∈ i.entry.shape.targets := by
    rw [← i.targets_block style family]
    exact List.mem_map_of_mem hins
  rcases i.entry.shape.targets_eq with ⟨-, single⟩ | ⟨labelled, -⟩
  · rw [single, ht] at among
    simp at among
  · exact Option.isSome_iff_exists.mp labelled

end Generator

/-! ## Distances -/

/-- The distance in bytes from the instruction at a position to a target: to itself, to the end of
the emission, or to its start. -/
def Emission.distance (e : Emission) (p : Nat) : Target → Int
  | .current => 0
  | .forward => 4 * ((e.size : Int) - p)
  | .backward => -4 * p

theorem Emission.distance_eq (e : Emission) (p : Nat) (t : Target) :
    e.distance p t = t.offset (e.size * wordBytes : Nat) (p * wordBytes : Nat) := by
  cases t with
  | current => rfl
  | forward => simp only [distance, Target.offset, wordBytes]; omega
  | backward => simp only [distance, Target.offset, wordBytes]; omega

/-- The offset lies within the reach of the transfer. -/
def Transfer.Holds (x : Transfer) (offset : Int) : Prop :=
  x.reach.least ≤ offset ∧ offset ≤ x.reach.most

theorem Transfer.contains_reach_iff (x : Transfer) (offset : Int) :
    x.reach.contains offset = true ↔ x.Holds offset := by
  simp [Reach.contains, Holds]

/-- A word without a target has nothing to reach. -/
theorem misfitAt_unlabelled (stop : Int) (entry : Entry) (p : Nat) :
    misfitAt stop ((entry, none), p) = none := by
  unfold misfitAt
  cases entry.shape.transfer with
  | none => rfl
  | some x => rfl

/-- What is wrong with a labelled word, in terms of its distance. -/
theorem misfitAt_labelled (e : Emission) {entry : Entry} {x : Transfer}
    (h : entry.shape.transfer = some x) (t : Target) (p : Nat) :
    misfitAt (e.size * wordBytes : Nat) ((entry, some t), p) =
      if x.reach.contains (e.distance p t) then none
      else some ⟨entry.assemblyName, e.distance p t, x.reach⟩ := by
  rw [e.distance_eq]
  simp only [misfitAt, h]

/-- A word with something wrong is a labelled one that lies too far from its label. -/
theorem exists_of_misfitAt (e : Emission) {entry : Entry} {target : Option Target} {p : Nat}
    {m : Misfit} (h : misfitAt (e.size * wordBytes : Nat) ((entry, target), p) = some m) :
    ∃ t x, target = some t ∧ entry.shape.transfer = some x ∧
      m = ⟨entry.assemblyName, e.distance p t, x.reach⟩ ∧ ¬ x.Holds (e.distance p t) := by
  cases target with
  | none =>
      rw [misfitAt_unlabelled] at h
      cases h
  | some t =>
      cases hx : entry.shape.transfer with
      | none =>
          simp only [misfitAt, hx] at h
          cases h
      | some x =>
          rw [misfitAt_labelled e hx] at h
          by_cases near : x.reach.contains (e.distance p t) = true
          · rw [if_pos near] at h
            cases h
          · rw [if_neg near] at h
            refine ⟨t, x, rfl, rfl, (Option.some.inj h).symm, ?_⟩
            intro holds
            exact near ((x.contains_reach_iff _).mpr holds)

theorem Catalog.checkReach_eq_ok_iff (c : Catalog) (count : Nat) :
    c.checkReach count = .ok () ↔ c.misfit? count = none := by
  unfold checkReach
  cases c.misfit? count with
  | none => simp
  | some m => simp

theorem Catalog.misfit?_of_checkReach {c : Catalog} {count : Nat} {fault : OutOfReach}
    (h : c.checkReach count = .error fault) : c.misfit? count = some fault.misfit := by
  unfold checkReach at h
  cases hm : c.misfit? count with
  | none =>
      rw [hm] at h
      cases h
  | some m =>
      rw [hm] at h
      cases h
      rfl

namespace Generator

variable (g : Generator) (style : CallStyle) (count : Nat) (c : Catalog)

/-- The instruction at the position reaches its label, if it has one. -/
def ReachesAt (p : Nat) : Prop :=
  ∀ (i : Instance) (ins : Instruction) (t : Target),
    (g.trace style count c)[p]? = some (i, ins) → ins.target = some t →
      ∃ x, i.entry.shape.transfer = some x ∧ x.Holds ((g.emit style count c).1.distance p t)

/-- The word planned for a position fits exactly when the instruction emitted there does. -/
theorem reachesAt_iff (p : Nat) :
    g.ReachesAt style count c p ↔
      ∀ w, (Entry.planAll count c.entries)[p]? = some w →
        misfitAt (c.words count * wordBytes : Nat) (w, p) = none := by
  rw [← g.map_trace style count c, ← size_emit g style count c, List.getElem?_map]
  constructor
  · intro reaches w hw
    obtain ⟨⟨i, ins⟩, found, rfl⟩ := Option.map_eq_some_iff.mp hw
    cases ht : ins.target with
    | none => exact misfitAt_unlabelled _ _ _
    | some t =>
        obtain ⟨x, h, holds⟩ := reaches i ins t found ht
        rw [misfitAt_labelled _ h, if_pos ((x.contains_reach_iff _).mpr holds)]
  · intro fits i ins t found ht
    -- an instruction with a target comes from an entry that has a reach to speak of
    obtain ⟨x, h⟩ := exists_transfer_of_mem_trace g style count c (List.mem_of_getElem? found) ht
    have fit := fits (i.entry, ins.target) (by rw [found, Option.map_some])
    rw [ht, misfitAt_labelled _ h] at fit
    refine ⟨x, h, (x.contains_reach_iff _).mp ?_⟩
    by_cases near : x.reach.contains ((g.emit style count c).1.distance p t) = true
    · exact near
    · rw [if_neg near] at fit
      cases fit

/-- The check passes exactly when every instruction of the emission reaches its label, and otherwise
reports the first that does not. -/
theorem checkReach_reaches :
    (g.trace style count c).map Prod.snd = (g.emit style count c).1.instructions ∧
      (c.checkReach count = .ok () ↔ ∀ p, g.ReachesAt style count c p) ∧
      ∀ fault, c.checkReach count = .error fault →
        ∃ p i ins t x, (g.trace style count c)[p]? = some (i, ins) ∧ ins.target = some t ∧
          i.entry.shape.transfer = some x ∧
          fault.misfit =
            ⟨ins.mnemonic, (g.emit style count c).1.distance p t, x.reach⟩ ∧
          ¬ x.Holds ((g.emit style count c).1.distance p t) ∧
          ∀ q < p, g.ReachesAt style count c q := by
  refine ⟨instructions_trace g style count c, ?_, ?_⟩
  · rw [c.checkReach_eq_ok_iff, c.misfit?_eq, firstMisfit_eq_none_iff]
    simp only [reachesAt_iff]
  · intro fault h
    have reported := Catalog.misfit?_of_checkReach h
    rw [c.misfit?_eq] at reported
    obtain ⟨p, w, planned, wrong, clear⟩ := exists_of_firstMisfit reported
    have within : ∀ q < p, g.ReachesAt style count c q := by
      intro q hq
      exact (reachesAt_iff g style count c q).mpr (clear q hq)
    rw [← g.map_trace style count c, List.getElem?_map] at planned
    obtain ⟨⟨i, ins⟩, found, rfl⟩ := Option.map_eq_some_iff.mp planned
    rw [← size_emit g style count c] at wrong
    obtain ⟨t, x, ht, hx, misfit, far⟩ := exists_of_misfitAt _ wrong
    refine ⟨p, i, ins, t, x, found, ht, hx, ?_, far, within⟩
    rw [misfit, mnemonic_of_mem_trace g style count c (List.mem_of_getElem? found)]

/-- A catalog of one branch that has a label and no operands. -/
def branchCatalog : Catalog :=
  ⟨[⟨.abs, [⟨⟨"b", by decide⟩, Shape.labelled .bare .branch, by decide⟩]⟩]⟩

/-- Control: of 342 branches in three forms each, the second form of the first one is the first that
lies too far from its label, by six bytes. -/
theorem checkReach_reaches_branches :
    ∃ fault, branchCatalog.checkReach 342 = .error fault ∧
      fault.misfit = ⟨"b", 4100, ⟨-4096, 4094⟩⟩ ∧
      ∃ p i ins t x, ((ofSeed 0).trace {} 342 branchCatalog)[p]? = some (i, ins) ∧
        ins.target = some t ∧ i.entry.shape.transfer = some x ∧
        fault.misfit =
          ⟨ins.mnemonic, ((ofSeed 0).emit {} 342 branchCatalog).1.distance p t, x.reach⟩ ∧
        ¬ x.Holds (((ofSeed 0).emit {} 342 branchCatalog).1.distance p t) ∧
        ∀ q < p, (ofSeed 0).ReachesAt {} 342 branchCatalog q := by
  have found : branchCatalog.misfit? 342 = some ⟨"b", 4100, ⟨-4096, 4094⟩⟩ := by decide +kernel
  have failed : branchCatalog.checkReach 342 =
      .error ⟨⟨"b", 4100, ⟨-4096, 4094⟩⟩, branchCatalog.greatestFitting 342⟩ := by
    rw [Catalog.checkReach, found]
  exact ⟨_, failed, rfl, (checkReach_reaches (ofSeed 0) {} 342 branchCatalog).2.2 _ failed⟩

end Generator

end EncoderVectors
