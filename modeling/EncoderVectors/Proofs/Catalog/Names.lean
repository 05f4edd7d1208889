import Mathlib.Data.List.Pairwise
import EncoderVectors.Catalog.Rv64g
import EncoderVectors.Proofs.Notation.Agreement

/-!
# Names in a catalog

The call and the assembly line of an instruction each open with a name. In the catalogs at hand the
name of a line tells the entry (`Catalog.Unambiguous.eq_of_assemblyName_eq`). The name of a call tells
the pattern of the entry, and together with the ordering the entry itself
(`Catalog.Unambiguous.pattern_eq_of_callName_eq`, `Catalog.Unambiguous.eq_of_callName_eq`): the two
orderings of an atomic operation share their calls.

Three facts about names are enough for that. They are checked for every pair of lines of the built-in
table (`Catalog.unambiguous_rv64g`), which has all members of a restricted catalog.
-/

set_option autoImplicit false

namespace EncoderVectors

/-! ## Names read backwards -/

namespace Mnemonic

theorem mem_reserved_of_lookup {name other : String} (h : reserved.lookup name = some other) :
    (name, other) ∈ reserved := by
  obtain ⟨before, after, split, -⟩ := List.lookup_eq_some_iff.mp h
  rw [split]
  exact List.mem_append_right before List.mem_cons_self

/-- A call tells the name, unless a name is also used instead of a reserved one. -/
theorem name_eq_of_callName_eq {m m' : Mnemonic} (h : m.callName = m'.callName)
    (free : m.name ∉ reserved.map Prod.snd) (free' : m'.name ∉ reserved.map Prod.snd) :
    m.name = m'.name := by
  unfold callName at h
  cases found : reserved.lookup m.name with
  | none =>
      cases found' : reserved.lookup m'.name with
      | none =>
          rw [found, found'] at h
          exact h
      | some other' =>
          -- one name would stand in the calls of the other
          rw [found, found'] at h
          have same : m.name = other' := h
          rw [same] at free
          exact absurd (List.mem_map_of_mem (mem_reserved_of_lookup found')) free
  | some other =>
      cases found' : reserved.lookup m'.name with
      | none =>
          rw [found, found'] at h
          have same : other = m'.name := h
          rw [← same] at free'
          exact absurd (List.mem_map_of_mem (mem_reserved_of_lookup found)) free'
      | some other' =>
          rw [found, found'] at h
          have same : other = other' := h
          have table : ∀ a ∈ reserved, ∀ b ∈ reserved, a.2 = b.2 → a.1 = b.1 := by decide
          exact table _ (mem_reserved_of_lookup found) _ (mem_reserved_of_lookup found') same

/-- The name with its dots made underscores again. -/
def underscored (chars : List Char) : List Char :=
  chars.map fun c => if c = '.' then '_' else c

theorem underscored_assemblyName (m : Mnemonic) :
    underscored m.assemblyName.toList = m.name.toList := by
  rw [underscored, assemblyName, String.toList_ofList, List.map_map]
  refine Eq.trans (List.map_congr_left ?_) (List.map_id _)
  intro c hc
  rcases m.name_chars c hc with part | rfl
  · -- no character of a part is one of the two that join parts
    have joint : c ≠ '_' := by
      rintro rfl
      exact absurd part (by decide)
    have dot : c ≠ '.' := by
      rintro rfl
      exact absurd part (by decide)
    simp [joint, dot]
  · rfl

end Mnemonic

/-- What the ordering adds to the name of an atomic operation. -/
def AtomicOrdering.ending (ordering : AtomicOrdering) : List Char :=
  '_' :: ordering.suffix.toList

theorem AtomicOrdering.underscored_suffix (ordering : AtomicOrdering) :
    Mnemonic.underscored ("." ++ ordering.suffix).toList = ordering.ending := by
  cases ordering <;> decide

theorem AtomicOrdering.ending_injective {o o' : AtomicOrdering} (h : o.ending = o'.ending) :
    o = o' :=
  suffix_injective (String.toList_injective (List.cons.inj h).2)

theorem AtomicOrdering.length_ending (o : AtomicOrdering) : o.ending.length = 3 := by
  cases o <;> decide

/-- The name of an entry with its ordering. -/
def Entry.fullName (e : Entry) : List Char :=
  e.mnemonic.name.toList ++ e.shape.ordering.elim [] AtomicOrdering.ending

theorem Entry.underscored_assemblyName (e : Entry) :
    Mnemonic.underscored e.assemblyName.toList = e.fullName := by
  have plain := e.mnemonic.underscored_assemblyName
  unfold assemblyName fullName
  cases e.shape.ordering with
  | none => simpa using plain
  | some ordering =>
      have suffix := ordering.underscored_suffix
      dsimp only
      rw [String.append_assoc, String.toList_append, Mnemonic.underscored, List.map_append]
      exact congr (congrArg _ plain) suffix

/-! ## Catalogs whose names can be told apart -/

namespace Catalog

/-- Names tell the members of a catalog apart. -/
structure Unambiguous (c : Catalog) : Prop where
  /-- Two members of one name are of one pattern, and differ in their orderings. -/
  apart : ∀ m ∈ c.members, ∀ m' ∈ c.members, m ≠ m' →
    m.2.mnemonic.name = m'.2.mnemonic.name →
      m.2.shape.pattern = m'.2.shape.pattern ∧ m.2.shape.ordering ≠ m'.2.shape.ordering
  /-- No name is used instead of a reserved one. -/
  free : ∀ m ∈ c.members, m.2.mnemonic.name ∉ Mnemonic.reserved.map Prod.snd
  /-- The name of a member without an ordering does not end like one with an ordering. -/
  plain : ∀ m ∈ c.members, m.2.shape.ordering = none → ∀ o : AtomicOrdering,
    ¬ o.ending <:+ m.2.mnemonic.name.toList

theorem members_restrict_subset (c : Catalog) (families : List Family) :
    (c.restrict families).members ⊆ c.members := by
  unfold restrict
  split
  · exact fun m hm => hm
  · intro m hm
    obtain ⟨g, hg, inside⟩ := List.mem_flatMap.mp hm
    exact List.mem_flatMap.mpr ⟨g, (List.mem_filter.mp hg).1, inside⟩

section

variable {c : Catalog} {m m' : Family × Entry}

theorem Unambiguous.pattern_eq_of_callName_eq (h : c.Unambiguous) (hm : m ∈ c.members)
    (hm' : m' ∈ c.members) (same : m.2.callName = m'.2.callName) :
    m.2.shape.pattern = m'.2.shape.pattern := by
  have name := Mnemonic.name_eq_of_callName_eq same (h.free m hm) (h.free m' hm')
  by_cases equal : m = m'
  · rw [equal]
  · exact (h.apart m hm m' hm' equal name).1

theorem Unambiguous.eq_of_callName_eq (h : c.Unambiguous) (hm : m ∈ c.members)
    (hm' : m' ∈ c.members) (same : m.2.callName = m'.2.callName)
    (ordering : m.2.shape.ordering = m'.2.shape.ordering) : m = m' := by
  have name := Mnemonic.name_eq_of_callName_eq same (h.free m hm) (h.free m' hm')
  by_contra differ
  exact (h.apart m hm m' hm' differ name).2 ordering

theorem Unambiguous.eq_of_fullName_eq (h : c.Unambiguous) (hm : m ∈ c.members)
    (hm' : m' ∈ c.members) (same : m.2.fullName = m'.2.fullName) : m = m' := by
  by_contra differ
  have apart := h.apart m hm m' hm' differ
  have plain := h.plain m hm
  have plain' := h.plain m' hm'
  unfold Entry.fullName at same
  cases ordering : m.2.shape.ordering with
  | none =>
      cases ordering' : m'.2.shape.ordering with
      | none =>
          rw [ordering, ordering'] at same apart
          have name : m.2.mnemonic.name = m'.2.mnemonic.name :=
            String.toList_injective (by simpa using same)
          exact (apart name).2 rfl
      | some o' =>
          -- a name would end in the ordering that the other has after its name
          rw [ordering, ordering'] at same
          exact plain ordering o' ⟨m'.2.mnemonic.name.toList, by simpa using same.symm⟩
  | some o =>
      cases ordering' : m'.2.shape.ordering with
      | none =>
          rw [ordering, ordering'] at same
          exact plain' ordering' o ⟨m.2.mnemonic.name.toList, by simpa using same⟩
      | some o' =>
          rw [ordering, ordering'] at same apart
          -- both endings have three characters, so names and endings match up
          obtain ⟨names, endings⟩ := List.append_inj' same
            (by simp only [Option.elim_some, AtomicOrdering.length_ending])
          exact (apart (String.toList_injective names)).2
            (congrArg some (AtomicOrdering.ending_injective endings))

/-- The name in assembly tells the member. -/
theorem Unambiguous.eq_of_assemblyName_eq (h : c.Unambiguous) (hm : m ∈ c.members)
    (hm' : m' ∈ c.members) (same : m.2.assemblyName = m'.2.assemblyName) : m = m' := by
  apply h.eq_of_fullName_eq hm hm'
  rw [← Entry.underscored_assemblyName, ← Entry.underscored_assemblyName, same]

end

end Catalog

/-! ## The built-in table -/

/-- The line that an entry comes from. -/
def Entry.row (e : Entry) : Row :=
  ⟨e.mnemonic.name, e.shape⟩

/-- A number for a text. Numbers are compared faster than texts. -/
def Text.code (text : String) : Nat :=
  text.toList.foldl (fun n c => 128 * n + c.toNat) 1

namespace Row

/-- Two lines of one name are of one pattern, and differ in their orderings. -/
def Apart (r r' : Row) : Prop :=
  Text.code r.name = Text.code r'.name →
    r.shape.pattern = r'.shape.pattern ∧ r.shape.ordering ≠ r'.shape.ordering

instance (r r' : Row) : Decidable (r.Apart r') :=
  inferInstanceAs (Decidable (_ → _ ∧ _))

theorem Apart.symm {r r' : Row} (h : r.Apart r') : r'.Apart r := by
  intro same
  obtain ⟨pattern, ordering⟩ := h same.symm
  exact ⟨pattern.symm, ordering.symm⟩

/-- The name of a line is not used instead of a reserved one, and ends in an ordering only if the line
has one. -/
def Distinct (r : Row) : Prop :=
  r.name ∉ Mnemonic.reserved.map Prod.snd ∧
    (r.shape.ordering = none → ∀ o ∈ AtomicOrdering.all, ¬ o.ending <:+ r.name.toList)

instance (r : Row) : Decidable r.Distinct :=
  inferInstanceAs (Decidable (_ ∧ (_ → _)))

end Row

namespace Rv64g

/-- The lines of the table, with their families. -/
def lines : List (Family × Row) :=
  table.flatMap fun g => g.2.map fun r => (g.1, r)

/-- What the table says about its names. -/
theorem lines_distinct :
    (lines.Pairwise fun l l' => l.2.Apart l'.2) ∧ ∀ l ∈ lines, l.2.Distinct := by
  decide +kernel

end Rv64g

namespace Catalog

theorem rows_ofRows (family : Family) (rows : List Row) (sound : ∀ r ∈ rows, r.Sound) :
    (Group.ofRows family rows sound).entries.map Entry.row = rows := by
  rw [Group.ofRows, List.map_map]
  exact List.attach_map_subtype_val rows

/-- The members of the built-in catalog come from the lines of the table, one from each. -/
theorem rows_members_rv64g : rv64g.members.map (fun m => (m.1, m.2.row)) = Rv64g.lines := by
  have group : ∀ g : { g // g ∈ Rv64g.table },
      ((Group.ofRows g.val.1 g.val.2 (Rv64g.table_sound g.val g.property)).entries.map
        fun e => (g.val.1, e)).map (fun m => (m.1, m.2.row)) =
      g.val.2.map fun r => (g.val.1, r) := by
    intro g
    -- only the lines that the entries come from are rewritten, not the entries
    have rows := rows_ofRows g.val.1 g.val.2 (Rv64g.table_sound g.val g.property)
    rw [List.map_map]
    nth_rewrite 2 [← rows]
    rw [List.map_map]
    rfl
  calc rv64g.members.map (fun m => (m.1, m.2.row))
      = Rv64g.table.attach.flatMap fun g => g.val.2.map fun r => (g.val.1, r) := by
        rw [members, List.map_flatMap, rv64g, List.flatMap_map]
        exact congrArg (List.flatMap · Rv64g.table.attach) (funext group)
    _ = (Rv64g.table.attach.map Subtype.val).flatMap fun g => g.2.map fun r => (g.1, r) := by
        rw [List.flatMap_map]
    _ = Rv64g.lines := by
        rw [List.attach_map_subtype_val]
        rfl

/-- The names of the built-in catalog tell its members apart. -/
theorem unambiguous_rv64g : rv64g.Unambiguous := by
  obtain ⟨pairs, single⟩ := Rv64g.lines_distinct
  rw [← rows_members_rv64g, List.pairwise_map] at pairs
  have symmetric : Std.Symm fun m m' : Family × Entry => m.2.row.Apart m'.2.row :=
    ⟨fun _ _ h => h.symm⟩
  have distinct : ∀ m ∈ rv64g.members, m.2.row.Distinct := by
    intro m hm
    apply single (m.1, m.2.row)
    rw [← rows_members_rv64g]
    exact List.mem_map_of_mem hm
  refine ⟨?_, ?_, ?_⟩
  · intro m hm m' hm' differ name
    apply pairs.forall hm hm' differ
    exact congrArg Text.code name
  · intro m hm
    exact (distinct m hm).1
  · intro m hm ordering o
    exact (distinct m hm).2 ordering o o.mem_all

end Catalog

end EncoderVectors
