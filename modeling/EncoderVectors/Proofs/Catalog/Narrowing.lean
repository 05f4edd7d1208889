import EncoderVectors.Proofs.Catalog.Threshold
import Mathlib.Data.List.Forall2

/-!
# Narrower catalogs

A catalog narrows another when it is left over after groups and entries of the other were deleted; the
restriction to some families is one way to get there (`Catalog.narrows_restrict`). Wherever something
is deleted, no entry that is kept has more words in front of it than before, and none has more words
ahead. So a catalog narrower than one that fits fits too, and with as many instances at least
(`Catalog.checkReach_of_narrows`).
-/

set_option autoImplicit false

namespace EncoderVectors

/-- The group is left over after entries of the other were deleted. -/
def Group.Narrows (g other : Group) : Prop :=
  g.family = other.family ∧ g.entries.Sublist other.entries

/-- The catalog is left over after groups, and entries of other groups, were deleted. -/
def Catalog.Narrows (c other : Catalog) : Prop :=
  List.SublistForall₂ Group.Narrows c.groups other.groups

/-! ## Words -/

theorem Entry.words_le_of_sublist {es es' : List Entry} (h : es.Sublist es') (count : Nat) :
    words count es ≤ words count es' := by
  induction h with
  | slnil => exact Nat.le_refl _
  | cons e _ ih => exact Nat.le_trans ih (Nat.le_add_left _ _)
  | cons_cons e _ ih => exact Nat.add_le_add_left ih _

namespace Catalog

/-- Entries still fit after some of them were deleted. -/
theorem Fit.of_sublist {count start : Nat} {es es' : List Entry} (fit : Fit count start es')
    (h : es.Sublist es') : Fit count start es := by
  induction h generalizing start with
  | slnil => exact fit
  | cons e _ ih =>
      -- what comes after a deleted entry moves to the front by its words
      exact (ih (fit_cons_iff.mp fit).2).of_le (Nat.le_refl _) (Nat.le_add_right _ _)
  | cons_cons e kept ih =>
      obtain ⟨first, rest⟩ := fit_cons_iff.mp fit
      refine fit_cons_iff.mpr ⟨?_, ih rest⟩
      intro x labelled
      refine (first x labelled).mono (Nat.le_refl _) (Nat.le_refl _)
        (Entry.words_le_of_sublist (kept.cons_cons e) count) ?_
      rw [Entry.words, Entry.forms_of_transfer labelled]
      exact Nat.le_add_right _ _

/-! ## Narrower catalogs -/

theorem Narrows.sublist_entries {c other : Catalog} (h : c.Narrows other) :
    c.entries.Sublist other.entries := by
  obtain ⟨groups⟩ := c
  obtain ⟨others⟩ := other
  change List.SublistForall₂ Group.Narrows groups others at h
  unfold entries
  induction h with
  | nil => exact List.nil_sublist _
  | cons group _ ih => exact group.2.append ih
  | cons_right _ ih => exact ih.trans (List.sublist_append_right _ _)

theorem narrows_restrict (c : Catalog) (families : List Family) : (c.restrict families).Narrows c := by
  have kept : (c.restrict families).groups.Sublist c.groups := by
    unfold restrict
    split
    · exact List.Sublist.refl _
    · exact List.filter_sublist
  refine List.sublistForall₂_iff.mpr ⟨_, ?_, kept⟩
  exact List.forall₂_same.mpr fun group _ => ⟨rfl, List.Sublist.refl _⟩

theorem misfit?_eq_none_of_narrows {c other : Catalog} {n : Nat} (h : c.Narrows other)
    (fits : other.misfit? n = none) : c.misfit? n = none := by
  rw [misfit?_eq_none_iff_fit] at fits ⊢
  exact fits.of_sublist h.sublist_entries

/-! ## The main statement -/

theorem isGreatest_limit {c : Catalog} {n : Nat} (fails : c.misfit? n ≠ none) :
    IsGreatest {m | c.checkReach m = .ok ()} (c.greatestFitting n) := by
  have fits : ∀ m, c.checkReach m = .ok () ↔ m ≤ c.greatestFitting n := by
    intro m
    rw [checkReach_eq_ok_iff]
    exact misfit?_eq_none_iff_le_limit fails m
  exact ⟨(fits _).mpr (Nat.le_refl _), fun m fit => (fits m).mp fit⟩

/-- The restriction to some families narrows a catalog, and so does every deletion of groups and of
entries. A count that fits a catalog fits every narrower one. Where there is a greatest count that
fits the narrower one, there is one for the catalog, and it is no greater; and the limit that is
reported for the catalog is never above the one reported for the narrower one. -/
theorem checkReach_of_narrows (c : Catalog) :
    (∀ families, (c.restrict families).Narrows c) ∧
    ∀ d : Catalog, d.Narrows c →
      (∀ n, c.checkReach n = .ok () → d.checkReach n = .ok ()) ∧
      (∀ most, IsGreatest {n | d.checkReach n = .ok ()} most →
        ∃ limit ≤ most, IsGreatest {n | c.checkReach n = .ok ()} limit) ∧
      ∀ n m fault fault', c.checkReach n = .error fault → d.checkReach m = .error fault' →
        fault.limit ≤ fault'.limit := by
  refine ⟨c.narrows_restrict, ?_⟩
  intro d narrows
  have fits : ∀ n, c.checkReach n = .ok () → d.checkReach n = .ok () := by
    intro n
    rw [checkReach_eq_ok_iff, checkReach_eq_ok_iff]
    exact misfit?_eq_none_of_narrows narrows
  refine ⟨fits, ?_, ?_⟩
  · intro most greatest
    -- one more than the greatest count fits neither of the two
    have fails : c.misfit? (most + 1) ≠ none := by
      intro fit
      have above := greatest.2 (fits (most + 1) ((checkReach_eq_ok_iff c _).mpr fit))
      omega
    have limit := isGreatest_limit fails
    exact ⟨_, greatest.2 (fits _ limit.1), limit⟩
  · intro n m fault fault' refused refused'
    obtain ⟨found, limit⟩ := checkReach_eq_error_iff.mp refused
    obtain ⟨found', limit'⟩ := checkReach_eq_error_iff.mp refused'
    have within := isGreatest_limit (c := c) (n := n) (by simp [found])
    have bound := isGreatest_limit (c := d) (n := m) (by simp [found'])
    rw [limit, limit']
    exact bound.2 (fits _ within.1)

/-- The catalog of one branch, with an instruction without a label in front of the branch and a group
of another such instruction in front of its group. -/
def crowdedCatalog : Catalog :=
  let nop : Entry := ⟨⟨"nop", by decide⟩, .bare, by decide⟩
  let fence : Entry := ⟨⟨"fence_i", by decide⟩, .bare, by decide⟩
  ⟨⟨.op, [nop]⟩ ::
    Generator.branchCatalog.groups.map fun g => { g with entries := fence :: g.entries }⟩

/-- Control: 205 instances of each entry of the crowded catalog are all that fit, and its branch alone
fits as often and more. -/
theorem checkReach_of_narrows_crowded :
    Generator.branchCatalog.Narrows crowdedCatalog ∧ crowdedCatalog.checkReach 205 = .ok () ∧
      Generator.branchCatalog.checkReach 205 = .ok () ∧
      ∃ fault fault', crowdedCatalog.checkReach 206 = .error fault ∧
        Generator.branchCatalog.checkReach 342 = .error fault' ∧ fault.limit ≤ fault'.limit := by
  have narrows : Generator.branchCatalog.Narrows crowdedCatalog :=
    .cons_right (.cons ⟨rfl, .cons _ (List.Sublist.refl _)⟩ .nil)
  have fits : crowdedCatalog.checkReach 205 = .ok () := by
    rw [checkReach_eq_ok_iff]
    decide +kernel
  have found : crowdedCatalog.misfit? 206 = some ⟨"b", -4104, ⟨-4096, 4094⟩⟩ := by decide +kernel
  have found' : Generator.branchCatalog.misfit? 342 = some ⟨"b", 4100, ⟨-4096, 4094⟩⟩ := by
    decide +kernel
  obtain ⟨fewer, -, limits⟩ := (checkReach_of_narrows crowdedCatalog).2 _ narrows
  have refused : crowdedCatalog.checkReach 206 =
      .error ⟨⟨"b", -4104, ⟨-4096, 4094⟩⟩, crowdedCatalog.greatestFitting 206⟩ := by
    rw [checkReach, found]
  have refused' : Generator.branchCatalog.checkReach 342 =
      .error ⟨⟨"b", 4100, ⟨-4096, 4094⟩⟩, Generator.branchCatalog.greatestFitting 342⟩ := by
    rw [checkReach, found']
  exact ⟨narrows, fits, fewer 205 fits, _, _, refused, refused', limits _ _ _ _ refused refused'⟩

end Catalog

end EncoderVectors
