import Mathlib.Data.List.Forall2
import EncoderVectors.Run

/-!
# Selecting families by name

Families are named in any letter case, in any order and as often as one likes. What is selected
depends on nothing but which families are named: `Catalog.select_eq_ok_iff` gives the groups, and
`Catalog.select_eq_error_iff` the name that is reported when one of the names is that of no family.

Letter case is spelled out by `Text.Recased`. No two families have names that differ in letter case
alone, so a name is that of one family at most (`Family.ofName?_eq_some_iff`).

Main result: `Catalog.select_depends_on_set`.
-/

set_option autoImplicit false

namespace EncoderVectors

/-! ## Letter case -/

namespace Text

/-- The same character, or one ASCII letter in both cases. -/
inductive SameLetter : Char → Char → Prop where
  /-- The same character. -/
  | same (c : Char) : SameLetter c c
  /-- A capital and its small letter. -/
  | lowered {c d : Char} (capital : 'A'.toNat ≤ c.toNat ∧ c.toNat ≤ 'Z'.toNat)
      (small : d.toNat = c.toNat + 32) : SameLetter c d
  /-- A small letter and its capital. -/
  | raised {c d : Char} (capital : 'A'.toNat ≤ d.toNat ∧ d.toNat ≤ 'Z'.toNat)
      (small : c.toNat = d.toNat + 32) : SameLetter c d

/-- The texts differ in nothing but the case of ASCII letters. -/
def Recased (a b : String) : Prop :=
  List.Forall₂ SameLetter a.toList b.toList

theorem toNat_toLower (c : Char) :
    c.toLower.toNat = if 65 ≤ c.toNat ∧ c.toNat ≤ 90 then c.toNat + 32 else c.toNat := by
  have capital : (c.val ≥ 'A'.val ∧ c.val ≤ 'Z'.val) ↔ 65 ≤ c.toNat ∧ c.toNat ≤ 90 := by
    simp only [ge_iff_le, UInt32.le_iff_toNat_le]
    exact Iff.rfl
  unfold Char.toLower
  split
  · next inside =>
      have bounds := capital.mp inside
      rw [if_pos bounds]
      change (c.val + 32).toNat = c.val.toNat + 32
      have small : c.val.toNat ≤ 90 := bounds.2
      rw [UInt32.toNat_add]
      exact Nat.mod_eq_of_lt (Nat.lt_of_le_of_lt (Nat.add_le_add_right small 32) (by decide))
  · next outside => rw [if_neg fun bounds => outside (capital.mpr bounds)]

theorem toLower_eq_iff {c d : Char} : c.toLower = d.toLower ↔ SameLetter c d := by
  have first := toNat_toLower c
  have second := toNat_toLower d
  constructor
  · -- either of the two may be a capital; only if both or none is, they are the same character
    intro equal
    rw [equal] at first
    rw [first] at second
    by_cases capital : 65 ≤ c.toNat ∧ c.toNat ≤ 90
    · rw [if_pos capital] at second
      by_cases other : 65 ≤ d.toNat ∧ d.toNat ≤ 90
      · rw [if_pos other] at second
        exact Char.toNat_inj.mp (Nat.add_right_cancel second) ▸ .same c
      · rw [if_neg other] at second
        exact .lowered capital second.symm
    · rw [if_neg capital] at second
      by_cases other : 65 ≤ d.toNat ∧ d.toNat ≤ 90
      · rw [if_pos other] at second
        exact .raised other second
      · rw [if_neg other] at second
        exact Char.toNat_inj.mp second ▸ .same c
  · intro letter
    apply Char.toNat_inj.mp
    rw [first, second]
    cases letter with
    | same => rfl
    | lowered capital small =>
        have capital : 65 ≤ c.toNat ∧ c.toNat ≤ 90 := capital
        rw [if_pos capital, if_neg (by omega), small]
    | raised capital small =>
        have capital : 65 ≤ d.toNat ∧ d.toNat ≤ 90 := capital
        rw [if_pos capital, if_neg (by omega), small]

theorem sameLetters_iff {a b : String} : sameLetters a b = true ↔ Recased a b := by
  rw [sameLetters, beq_iff_eq, ← List.forall₂_eq_eq_eq, List.forall₂_map_left_iff,
    List.forall₂_map_right_iff]
  simp only [toLower_eq_iff]
  exact Iff.rfl

instance (a b : String) : Decidable (Recased a b) :=
  decidable_of_iff _ sameLetters_iff

theorem recased_refl (a : String) : Recased a a :=
  List.forall₂_same.mpr fun c _ => .same c

theorem Recased.symm {a b : String} (h : Recased a b) : Recased b a := by
  rw [← sameLetters_iff, sameLetters, beq_iff_eq] at h ⊢
  exact h.symm

theorem Recased.trans {a b c : String} (h : Recased a b) (h' : Recased b c) : Recased a c := by
  rw [← sameLetters_iff, sameLetters, beq_iff_eq] at h h' ⊢
  exact h.trans h'

end Text

/-! ## Names of families -/

namespace Family

theorem mem_all (f : Family) : f ∈ all := by
  cases f <;> decide

/-- Different families have names that differ in more than letter case. -/
theorem eq_of_recased_names {f g : Family} (h : Text.Recased f.name g.name) : f = g := by
  have table : ∀ f ∈ all, ∀ g ∈ all, Text.sameLetters f.name g.name = true → f = g := by
    decide +kernel
  exact table f f.mem_all g g.mem_all (Text.sameLetters_iff.mpr h)

theorem ofName?_eq_some_iff {text : String} {f : Family} :
    ofName? text = some f ↔ Text.Recased f.name text := by
  constructor
  · intro found
    have same : Text.sameLetters f.name text = true := by simpa using List.find?_some found
    exact Text.sameLetters_iff.mp same
  · intro named
    cases found : ofName? text with
    | none =>
        have missed := List.find?_eq_none.mp found f f.mem_all
        exact absurd (Text.sameLetters_iff.mpr named) missed
    | some g =>
        have same : Text.sameLetters g.name text = true := by simpa using List.find?_some found
        exact congrArg some (eq_of_recased_names ((Text.sameLetters_iff.mp same).trans named.symm))

/-- The text is the name of a family. -/
def IsName (text : String) : Prop :=
  ∃ f : Family, Text.Recased f.name text

theorem ofName?_eq_none_iff {text : String} : ofName? text = none ↔ ¬ IsName text := by
  rw [IsName, Option.eq_none_iff_forall_ne_some, not_exists]
  exact forall_congr' fun f => not_congr ofName?_eq_some_iff

end Family

namespace Catalog

/-! ## Reading the names -/

theorem map_eq_error_iff {α β : Type} {x : Except String α} {g : α → β} {name : String} :
    x.map g = .error name ↔ x = .error name := by
  cases x <;> simp [Except.map]

theorem map_eq_ok_iff {α β : Type} {x : Except String α} {g : α → β} {b : β} :
    x.map g = .ok b ↔ ∃ a, x = .ok a ∧ g a = b := by
  cases x <;> simp [Except.map]

section Reading

variable {name : String} {names : List String}

theorem familiesNamed_of_unknown (unknown : ¬ Family.IsName name) :
    familiesNamed (name :: names) = .error name := by
  rw [familiesNamed, List.mapM_cons, Family.ofName?_eq_none_iff.mpr unknown]
  rfl

theorem familiesNamed_of_recased {f : Family} (named : Text.Recased f.name name) :
    familiesNamed (name :: names) = (familiesNamed names).map (f :: ·) := by
  rw [familiesNamed, List.mapM_cons, Family.ofName?_eq_some_iff.mpr named]
  rfl

/-- Every name is read as its family, if all of them are names. -/
theorem familiesNamed_eq_ok_iff {families : List Family} :
    familiesNamed names = .ok families ↔
      List.Forall₂ (fun name f => Text.Recased f.name name) names families := by
  induction names generalizing families with
  | nil =>
      rw [List.forall₂_nil_left_iff]
      exact ⟨fun read => (Except.ok.inj read).symm, fun none => congrArg Except.ok none.symm⟩
  | cons name names ih =>
      by_cases known : Family.IsName name
      · obtain ⟨f, named⟩ := known
        rw [familiesNamed_of_recased named, map_eq_ok_iff]
        constructor
        · rintro ⟨others, rest, rfl⟩
          exact .cons named (ih.mp rest)
        · intro read
          cases read with
          | @cons _ g _ others first tail =>
              have equal : g = f := Family.eq_of_recased_names (first.trans named.symm)
              exact ⟨others, ih.mpr tail, equal ▸ rfl⟩
      · rw [familiesNamed_of_unknown known]
        constructor
        · intro read
          cases read
        · intro read
          cases read with
          | cons first _ => exact absurd ⟨_, first⟩ known

/-- The first of the names that is that of no family. -/
def FirstUnknown (names : List String) (name : String) : Prop :=
  ∃ before after, names = before ++ name :: after ∧ (∀ other ∈ before, Family.IsName other) ∧
    ¬ Family.IsName name

theorem firstUnknown_cons_iff {first : String} (known : Family.IsName first) :
    FirstUnknown (first :: names) name ↔ FirstUnknown names name := by
  constructor
  · rintro ⟨before, after, split, all, unknown⟩
    cases before with
    | nil =>
        cases split
        exact absurd known unknown
    | cons b before =>
        cases split
        exact ⟨before, after, rfl, (List.forall_mem_cons.mp all).2, unknown⟩
  · rintro ⟨before, after, rfl, all, unknown⟩
    exact ⟨first :: before, after, rfl, List.forall_mem_cons.mpr ⟨known, all⟩, unknown⟩

theorem familiesNamed_eq_error_iff :
    familiesNamed names = .error name ↔ FirstUnknown names name := by
  induction names with
  | nil =>
      constructor
      · intro read
        cases read
      · rintro ⟨before, after, split, -⟩
        exact absurd split.symm (by simp)
  | cons first names ih =>
      by_cases known : Family.IsName first
      · obtain ⟨f, named⟩ := known
        rw [familiesNamed_of_recased named, map_eq_error_iff, ih,
          firstUnknown_cons_iff ⟨f, named⟩]
      · rw [familiesNamed_of_unknown known]
        constructor
        · intro read
          cases read
          exact ⟨[], names, rfl, by simp, known⟩
        · rintro ⟨before, after, split, all, -⟩
          cases before with
          | nil =>
              cases split
              rfl
          | cons b before =>
              cases split
              exact absurd (List.forall_mem_cons.mp all).1 known

end Reading

/-! ## Selecting -/

/-- The family is one of those that are named; no names at all stand for every family. -/
def Named (names : List String) (f : Family) : Prop :=
  names = [] ∨ ∃ name ∈ names, Text.Recased f.name name

instance (names : List String) (f : Family) : Decidable (Named names f) :=
  inferInstanceAs (Decidable (_ ∨ _))

section Selecting

variable {names : List String} {c : Catalog}

theorem select_eq_error_iff {name : String} :
    select names = .error name ↔ FirstUnknown names name := by
  rw [select, map_eq_error_iff, familiesNamed_eq_error_iff]

theorem isName_of_read {families : List Family}
    (read : List.Forall₂ (fun name f => Text.Recased f.name name) names families) :
    ∀ name ∈ names, Family.IsName name := by
  induction read with
  | nil => simp
  | cons first _ ih => exact List.forall_mem_cons.mpr ⟨⟨_, first⟩, ih⟩

/-- The families that were read are those that are named. -/
theorem mem_families_iff {families : List Family}
    (read : List.Forall₂ (fun name f => Text.Recased f.name name) names families) (f : Family) :
    f ∈ families ↔ ∃ name ∈ names, Text.Recased f.name name := by
  induction read with
  | nil => simp
  | @cons name g names families first rest ih =>
      simp only [List.mem_cons, ih, exists_eq_or_imp]
      refine or_congr_left ⟨?_, ?_⟩
      · rintro rfl
        exact first
      · intro named
        exact Family.eq_of_recased_names (named.trans first.symm)

theorem restrict_eq_filter {families : List Family}
    (read : List.Forall₂ (fun name f => Text.Recased f.name name) names families) :
    rv64g.restrict families = ⟨rv64g.groups.filter fun g => Named names g.family⟩ := by
  have none : families = [] ↔ names = [] := by
    rw [← List.length_eq_zero_iff, ← read.length_eq, List.length_eq_zero_iff]
  unfold restrict
  split
  · next empty =>
      have all : ∀ f, Named names f := fun f => .inl (none.mp (List.isEmpty_iff.mp empty))
      simp [all]
  · next some =>
      have named : names ≠ [] := fun empty => some (List.isEmpty_iff.mpr (none.mpr empty))
      congr 1
      apply List.filter_congr
      intro g _
      rw [List.contains_eq_mem, decide_eq_decide, mem_families_iff read, Named, or_iff_right named]

/-- What is selected are the groups whose families are named. -/
theorem select_eq_ok_iff : select names = .ok c ↔
    (∀ name ∈ names, Family.IsName name) ∧
      c.groups = rv64g.groups.filter fun g => Named names g.family := by
  obtain ⟨groups⟩ := c
  rw [select, map_eq_ok_iff]
  constructor
  · rintro ⟨families, read, equal⟩
    rw [familiesNamed_eq_ok_iff] at read
    rw [restrict_eq_filter read] at equal
    exact ⟨isName_of_read read, (congrArg Catalog.groups equal).symm⟩
  · rintro ⟨known, rfl⟩
    cases result : familiesNamed names with
    | error name =>
        obtain ⟨before, after, rfl, -, unknown⟩ := familiesNamed_eq_error_iff.mp result
        exact absurd (known name (by simp)) unknown
    | ok families =>
        exact ⟨families, rfl, restrict_eq_filter (familiesNamed_eq_ok_iff.mp result)⟩

end Selecting

/-! ## Groups of the built-in catalog -/

/-- The groups are those of the table, in its order. -/
theorem families_rv64g : rv64g.groups.map Group.family = Rv64g.table.map Prod.fst := by
  rw [rv64g, List.map_map]
  exact (List.map_map (f := Subtype.val) ..).symm.trans
    (congrArg (List.map Prod.fst) (List.attach_map_subtype_val Rv64g.table))

/-- Every family has a group, and no group is empty. -/
theorem exists_group_rv64g (f : Family) :
    ∃ g ∈ rv64g.groups, g.family = f ∧ g.entries ≠ [] := by
  have table : ∀ f ∈ Family.all, ∃ line ∈ Rv64g.table, line.1 = f ∧ line.2 ≠ [] := by
    decide +kernel
  obtain ⟨line, listed, family, some⟩ := table f f.mem_all
  refine ⟨_, List.mem_map.mpr ⟨⟨line, listed⟩, List.mem_attach _ _, rfl⟩, family, ?_⟩
  simpa [Group.ofRows] using some

theorem length_atom_groups : (rv64g.groups.filter fun g => g.family = .atom).length = 4 := by
  have count : (Rv64g.table.map Prod.fst).count .atom = 4 := by decide +kernel
  rw [← families_rv64g, List.count_eq_countP, List.countP_map, List.countP_eq_length_filter] at count
  exact count

section Selected

variable {names : List String} {c : Catalog}

/-- Whatever is named, something is. -/
theorem exists_named (known : ∀ name ∈ names, Family.IsName name) : ∃ f, Named names f := by
  cases names with
  | nil => exact ⟨.arith, .inl rfl⟩
  | cons name names =>
      obtain ⟨f, named⟩ := known name List.mem_cons_self
      exact ⟨f, .inr ⟨name, List.mem_cons_self, named⟩⟩

theorem exists_group_of_select (selected : select names = .ok c) {f : Family}
    (named : Named names f) : ∃ g ∈ c.groups, g.family = f ∧ g.entries ≠ [] := by
  obtain ⟨g, listed, rfl, some⟩ := exists_group_rv64g f
  refine ⟨g, ?_, rfl, some⟩
  rw [(select_eq_ok_iff.mp selected).2]
  exact List.mem_filter.mpr ⟨listed, decide_eq_true named⟩

/-- All groups of a named family are selected, as they are. -/
theorem filter_family_of_select (selected : select names = .ok c) {f : Family}
    (named : Named names f) :
    (c.groups.filter fun g => g.family = f) = rv64g.groups.filter fun g => g.family = f := by
  rw [(select_eq_ok_iff.mp selected).2, List.filter_filter]
  apply List.filter_congr
  intro g _
  by_cases family : g.family = f
  · simp [family, named]
  · simp [family]

theorem size_pos_of_select (selected : select names = .ok c) : 0 < c.size := by
  obtain ⟨f, named⟩ := exists_named (select_eq_ok_iff.mp selected).1
  obtain ⟨g, listed, -, some⟩ := exists_group_of_select selected named
  obtain ⟨e, member⟩ := List.exists_mem_of_ne_nil _ some
  exact List.length_pos_of_mem (List.mem_flatMap.mpr ⟨g, listed, member⟩)

end Selected

/-! ## Lists that name the same families -/

/-- Each list has every name of the other, in some letter case. -/
def SameNames (names names' : List String) : Prop :=
  (∀ name ∈ names, ∃ name' ∈ names', Text.Recased name name') ∧
    ∀ name' ∈ names', ∃ name ∈ names, Text.Recased name name'

instance (names names' : List String) : Decidable (SameNames names names') :=
  inferInstanceAs (Decidable (_ ∧ _))

section SameNames

variable {names names' : List String}

theorem SameNames.symm (h : SameNames names names') : SameNames names' names := by
  constructor
  · intro name' listed
    obtain ⟨name, other, same⟩ := h.2 name' listed
    exact ⟨name, other, same.symm⟩
  · intro name listed
    obtain ⟨name', other, same⟩ := h.1 name listed
    exact ⟨name', other, same.symm⟩

theorem sameNames_of_mem_iff (h : ∀ name, name ∈ names ↔ name ∈ names') : SameNames names names' := by
  constructor
  · intro name listed
    exact ⟨name, (h name).mp listed, Text.recased_refl name⟩
  · intro name listed
    exact ⟨name, (h name).mpr listed, Text.recased_refl name⟩

theorem sameNames_of_recased (h : List.Forall₂ Text.Recased names names') :
    SameNames names names' := by
  induction h with
  | nil => exact ⟨by simp, by simp⟩
  | @cons name name' names names' first rest ih =>
      constructor
      · refine List.forall_mem_cons.mpr ⟨⟨name', List.mem_cons_self, first⟩, ?_⟩
        intro other listed
        obtain ⟨other', listed', same⟩ := ih.1 other listed
        exact ⟨other', List.mem_cons_of_mem _ listed', same⟩
      · refine List.forall_mem_cons.mpr ⟨⟨name, List.mem_cons_self, first⟩, ?_⟩
        intro other' listed'
        obtain ⟨other, listed, same⟩ := ih.2 other' listed'
        exact ⟨other, List.mem_cons_of_mem _ listed, same⟩

theorem SameNames.isName (h : SameNames names names') (known : ∀ name ∈ names, Family.IsName name) :
    ∀ name' ∈ names', Family.IsName name' := by
  intro name' listed'
  obtain ⟨name, listed, same⟩ := h.2 name' listed'
  obtain ⟨f, named⟩ := known name listed
  exact ⟨f, named.trans same⟩

theorem SameNames.named (h : SameNames names names') {f : Family} (named : Named names f) :
    Named names' f := by
  rcases named with rfl | ⟨name, listed, named⟩
  · -- a list with a name in it has none of the names of the empty list
    refine .inl (List.eq_nil_iff_forall_not_mem.mpr fun name' listed' => ?_)
    obtain ⟨name, listed, -⟩ := h.2 name' listed'
    exact absurd listed List.not_mem_nil
  · obtain ⟨name', listed', same⟩ := h.1 name listed
    exact .inr ⟨name', listed', named.trans same⟩

theorem SameNames.select (h : SameNames names names') {c : Catalog}
    (selected : select names = .ok c) : Catalog.select names' = .ok c := by
  obtain ⟨known, groups⟩ := select_eq_ok_iff.mp selected
  refine select_eq_ok_iff.mpr ⟨h.isName known, groups.trans ?_⟩
  apply List.filter_congr
  intro g _
  rw [decide_eq_decide]
  exact ⟨h.named, h.symm.named⟩

end SameNames

/-! ## The main statement -/

/-- Selecting fails exactly when some text is the name of no family, and reports the first such text as
it was given. Otherwise the groups of the named families are selected as they are in the built-in
catalog, or all of them if nothing is named. So there is always something to emit, every group of a
named family is there, among them the four groups of atomic operations, and lists that name the same
families select the same. A family is read from its own name in any letter case. -/
theorem select_depends_on_set (names : List String) :
    ((∃ name, select names = .error name) ↔ ∃ name ∈ names, ¬ Family.IsName name) ∧
    (∀ (s : Settings) (e : Error), s.run.families = names →
      (s.catalog = .error e ↔ ∃ name, e = .family name ∧ FirstUnknown names name)) ∧
    (∀ c, select names = .ok c ↔ (∀ name ∈ names, Family.IsName name) ∧
      c.groups = rv64g.groups.filter fun g => Named names g.family) ∧
    (∀ c, select names = .ok c → 0 < c.size ∧ ∀ f, Named names f →
      (∃ g ∈ c.groups, g.family = f ∧ g.entries ≠ []) ∧
      (c.groups.filter fun g => g.family = f) = rv64g.groups.filter fun g => g.family = f) ∧
    (∀ names' c, SameNames names names' → (select names = .ok c ↔ select names' = .ok c)) ∧
    (∀ names', names.Perm names' → SameNames names names') ∧
    (∀ name ∈ names, SameNames names (name :: names)) ∧
    (∀ names', List.Forall₂ Text.Recased names names' → SameNames names names') ∧
    (∀ f text, Text.Recased (Family.name f) text → Family.ofName? text = some f) ∧
    Family.all.length = 29 ∧ (rv64g.groups.filter fun g => g.family = .atom).length = 4 := by
  refine ⟨?_, ?_, fun c => select_eq_ok_iff, ?_, ?_, ?_, ?_, fun _ => sameNames_of_recased,
    fun f text => Family.ofName?_eq_some_iff.mpr, rfl, length_atom_groups⟩
  · constructor
    · rintro ⟨name, failed⟩
      obtain ⟨before, after, rfl, -, unknown⟩ := select_eq_error_iff.mp failed
      exact ⟨name, by simp, unknown⟩
    · rintro ⟨name, listed, unknown⟩
      cases result : select names with
      | error other => exact ⟨other, rfl⟩
      | ok c => exact absurd ((select_eq_ok_iff.mp result).1 name listed) unknown
  · rintro s e rfl
    simp only [← select_eq_error_iff, Settings.catalog]
    cases select s.run.families with
    | error name => simp [eq_comm]
    | ok c => simp
  · intro c selected
    exact ⟨size_pos_of_select selected, fun f named =>
      ⟨exists_group_of_select selected named, filter_family_of_select selected named⟩⟩
  · intro names' c same
    exact ⟨same.select, same.symm.select⟩
  · intro names' reordered
    exact sameNames_of_mem_iff fun _ => reordered.mem_iff
  · intro name listed
    apply sameNames_of_mem_iff
    intro other
    rw [List.mem_cons]
    refine ⟨Or.inr, ?_⟩
    rintro (rfl | other)
    · exact listed
    · exact other

/-- Control: two families named in another order and case, one of them twice, and a text in between
that is the name of none. -/
theorem select_depends_on_set_shuffled :
    SameNames ["AtomOp", "AbsOp"] ["absop", "ATOMOP", "AbsOp"] ∧
      (∃ c, select ["AtomOp", "AbsOp"] = .ok c ∧ select ["absop", "ATOMOP", "AbsOp"] = .ok c ∧
        0 < c.size ∧ (c.groups.filter fun g => g.family = .atom).length = 4) ∧
      ∃ name, select ["AbsOp", "Jumps", "Atom"] = .error name := by
  obtain ⟨-, -, taken, groups, same, -, -, -, -, -, four⟩ := select_depends_on_set ["AtomOp", "AbsOp"]
  obtain ⟨fails, -⟩ := select_depends_on_set ["AbsOp", "Jumps", "Atom"]
  have alike : SameNames ["AtomOp", "AbsOp"] ["absop", "ATOMOP", "AbsOp"] := by decide +kernel
  have known : ∀ name ∈ ["AtomOp", "AbsOp"], Family.IsName name := by
    simp only [List.forall_mem_cons]
    exact ⟨⟨.atom, by decide⟩, ⟨.abs, by decide⟩, by simp⟩
  have selected := (taken ⟨_⟩).mpr ⟨known, rfl⟩
  obtain ⟨size, each⟩ := groups _ selected
  refine ⟨alike, ⟨_, selected, (same _ _ alike).mp selected, size, ?_⟩, fails.mpr ?_⟩
  · rw [(each .atom (.inr ⟨"AtomOp", by simp, by decide⟩)).2]
    exact four
  · refine ⟨"Jumps", by simp, ?_⟩
    rw [← Family.ofName?_eq_none_iff]
    decide +kernel

end Catalog

end EncoderVectors
