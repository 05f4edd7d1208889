import EncoderVectors.Proofs.Emission.LabelReach
import Mathlib.Order.Bounds.Basic

/-!
# The greatest count in reach

What an instance of a control transfer has to bridge is known from two numbers: the words in front of
the instances of its entry, and the words from the first of them to the end of the body. Both grow
with the count. So do the distances of a form to its labels, and a catalog that fits with some count
fits with every smaller one (`Catalog.misfit?_eq_none_of_le`).

That is all that bisection needs: between a count that fits and one that does not it ends at the last
that fits (`Catalog.bisect_spec`), and the limit that the check reports is the exact threshold
(`Catalog.checkReach_threshold`).
-/

set_option autoImplicit false

namespace EncoderVectors

/-! ## One entry -/

namespace Transfer

/-- All forms of `count` instances reach their labels, with `before` words in front of the first
instance and `onward` words from there to the end of the body. Only the second and the third form of
an instance have something to bridge. -/
def SpansAll (x : Transfer) (count before onward : Nat) : Prop :=
  ∀ r < count, x.Holds (wordBytes * ((onward : Int) - (3 * r + 1))) ∧
    x.Holds (-(wordBytes * ((before : Int) + (3 * r + 2))))

theorem least_le_zero (x : Transfer) : x.reach.least ≤ 0 := by
  cases x <;> decide

theorem zero_le_most (x : Transfer) : 0 ≤ x.reach.most := by
  cases x <;> decide

/-- Fewer instances, with fewer words in front and fewer words to the end, reach what more do. -/
theorem SpansAll.mono {x : Transfer} {count before onward count' before' onward' : Nat}
    (spans : x.SpansAll count' before' onward') (fewer : count ≤ count') (front : before ≤ before')
    (rest : onward ≤ onward') (inside : 3 * count ≤ onward) : x.SpansAll count before onward := by
  intro r hr
  obtain ⟨forward, backward⟩ := spans r (Nat.lt_of_lt_of_le hr fewer)
  have low := x.least_le_zero
  have high := x.zero_le_most
  have ahead : 3 * r + 1 ≤ onward := Nat.le_trans (by omega) inside
  simp only [Holds, wordBytes] at forward backward ⊢
  -- forward distances are never negative and backward ones never positive: one end of the reach
  -- is free, and the other is where the larger distance ends already
  refine ⟨⟨?_, ?_⟩, ?_, ?_⟩
  · omega
  · omega
  · omega
  · omega

theorem misfit?_cons_eq_none_iff (x : Transfer) (stop : Int) (target : Target)
    (rest : List Target) (pc : Int) :
    x.misfit? stop (target :: rest) pc = none ↔
      x.Holds (target.offset stop pc) ∧ x.misfit? stop rest (pc + wordBytes) = none := by
  rw [misfit?, ← contains_reach_iff]
  split
  · next fits => simp only [fits, true_and]
  · next outside => simp [outside]

/-- The form that aims at itself always fits, so one instance has two distances to look at. -/
theorem misfit?_all_eq_none_iff (x : Transfer) (stop pc : Int) :
    x.misfit? stop Target.all pc = none ↔
      x.Holds (stop - (pc + wordBytes)) ∧ x.Holds (-(pc + wordBytes + wordBytes)) := by
  have own : x.Holds 0 := ⟨x.least_le_zero, x.zero_le_most⟩
  rw [Target.all, misfit?_cons_eq_none_iff, misfit?_cons_eq_none_iff, misfit?_cons_eq_none_iff]
  simp only [misfit?, Target.offset, own, true_and, and_true]

theorem misfitAmong?_eq_none_iff (x : Transfer) (stop : Int) (count : Nat) (pc : Int) :
    x.misfitAmong? stop count pc = none ↔
      ∀ r < count, x.Holds (stop - (pc + 3 * r * wordBytes + wordBytes)) ∧
        x.Holds (-(pc + 3 * r * wordBytes + wordBytes + wordBytes)) := by
  induction count generalizing pc with
  | zero => simp [misfitAmong?]
  | succ count ih =>
      have size : (Target.all.length : Int) = 3 := rfl
      -- an instance further on starts three words later
      have later : ∀ r : Nat, pc + 3 * (wordBytes : Int) + 3 * r * wordBytes =
          pc + 3 * ((r + 1 : Nat) : Int) * wordBytes := by
        intro r
        simp only [wordBytes]
        omega
      have first : pc + 3 * ((0 : Nat) : Int) * wordBytes = pc := by simp
      rw [misfitAmong?, Option.orElse_eq_or, Option.or_eq_none_iff, misfit?_all_eq_none_iff, ih, size,
        Nat.forall_lt_succ_left, first]
      simp only [later]

/-- The instances of an entry are searched in vain when they span what they have to. -/
theorem misfitAmong?_eq_none_iff_spansAll (x : Transfer) (count before onward : Nat) :
    x.misfitAmong? ((before + onward) * wordBytes : Nat) count (before * wordBytes : Nat) = none ↔
      x.SpansAll count before onward := by
  have forward : ∀ r : Nat, (((before + onward) * wordBytes : Nat) : Int) -
      ((before * wordBytes : Nat) + 3 * r * wordBytes + wordBytes) =
      wordBytes * ((onward : Int) - (3 * r + 1)) := by
    intro r
    simp only [wordBytes]
    omega
  have backward : ∀ r : Nat, -(((before * wordBytes : Nat) : Int) + 3 * r * wordBytes + wordBytes +
      wordBytes) = -(wordBytes * ((before : Int) + (3 * r + 2))) := by
    intro r
    simp only [wordBytes]
    omega
  rw [misfitAmong?_eq_none_iff, SpansAll]
  simp only [forward, backward]

end Transfer

/-! ## A whole catalog -/

theorem Entry.words_le_words {count count' : Nat} (h : count ≤ count') (es : List Entry) :
    words count es ≤ words count' es := by
  rw [words_eq, words_eq]
  exact Nat.mul_le_mul_right _ h

theorem Entry.forms_of_transfer {e : Entry} {x : Transfer} (h : e.shape.transfer = some x) :
    e.forms = 3 := by
  simp [forms, Shape.forms, Shape.targets, h, Target.all]

/-- A statement about every way to cut a list in front of one of its elements, for a list that is not
empty: it is about the first element, and about every cut of the rest. -/
theorem forall_cut_cons_iff {α : Type} {a : α} {l : List α} {P : List α → α → List α → Prop} :
    (∀ before b after, a :: l = before ++ b :: after → P before b after) ↔
      P [] a l ∧ ∀ before b after, l = before ++ b :: after → P (a :: before) b after := by
  constructor
  · intro all
    refine ⟨all [] a l rfl, ?_⟩
    rintro before b after rfl
    exact all (a :: before) b after rfl
  · rintro ⟨first, later⟩ before b after cut
    cases before with
    | nil =>
        obtain ⟨rfl, rfl⟩ := List.cons.inj cut
        exact first
    | cons c before =>
        obtain ⟨rfl, rest⟩ := List.cons.inj cut
        exact later before b after rest

namespace Catalog

/-- Every labelled entry reaches its labels, with `start` words in front of all of them: an entry has
the words of the entries before it in front, and its own and those of the entries after it ahead. -/
def Fit (count start : Nat) (es : List Entry) : Prop :=
  ∀ before e after, es = before ++ e :: after → ∀ x, e.shape.transfer = some x →
    x.SpansAll count (start + Entry.words count before) (Entry.words count (e :: after))

theorem fit_cons_iff {count start : Nat} {e : Entry} {es : List Entry} :
    Fit count start (e :: es) ↔
      (∀ x, e.shape.transfer = some x → x.SpansAll count start (Entry.words count (e :: es))) ∧
        Fit count (start + e.forms * count) es := by
  unfold Fit
  rw [forall_cut_cons_iff]
  simp only [Entry.words, Nat.add_zero, Nat.add_assoc]

/-- The search finds nothing exactly when the entries that are left fit. -/
theorem misfitFrom?_eq_none_iff (count start : Nat) (es : List Entry) :
    misfitFrom? count ((start + Entry.words count es) * wordBytes : Nat) es
        (start * wordBytes : Nat) = none ↔ Fit count start es := by
  induction es generalizing start with
  | nil => simp [misfitFrom?, Fit]
  | cons e es ih =>
      have stop : start + Entry.words count (e :: es) =
          start + e.forms * count + Entry.words count es := by
        rw [Entry.words, Nat.add_assoc]
      have next : ((start * wordBytes : Nat) : Int) + (e.forms * count : Nat) * wordBytes =
          ((start + e.forms * count) * wordBytes : Nat) := offset_add_words _ _
      rw [fit_cons_iff, misfitFrom?, next, ← ih, ← stop]
      cases labelled : e.shape.transfer with
      | none => simp
      | some x =>
          have own := x.misfitAmong?_eq_none_iff_spansAll count start (Entry.words count (e :: es))
          cases found : x.misfitAmong? ((start + Entry.words count (e :: es)) * wordBytes : Nat) count
              (start * wordBytes : Nat) with
          | none =>
              have spans := own.mp found
              simp only [found]
              simp [spans]
          | some offset =>
              have short : ¬ x.SpansAll count start (Entry.words count (e :: es)) := by
                rw [← own, found]
                simp
              simp only [found]
              simp [short]

theorem misfit?_eq_none_iff_fit (c : Catalog) (count : Nat) :
    c.misfit? count = none ↔ Fit count 0 c.entries := by
  have walk := misfitFrom?_eq_none_iff count 0 c.entries
  rwa [Nat.zero_mul, Nat.zero_add] at walk

/-- Entries that fit with some count fit with every smaller one: all distances shrink. -/
theorem Fit.of_le {count count' start start' : Nat} {es : List Entry} (fit : Fit count' start' es)
    (fewer : count ≤ count') (front : start ≤ start') : Fit count start es := by
  intro before e after cut x labelled
  have spans := fit before e after cut x labelled
  refine spans.mono fewer ?_ (Entry.words_le_words fewer _) ?_
  · exact Nat.add_le_add front (Entry.words_le_words fewer before)
  · rw [Entry.words, Entry.forms_of_transfer labelled]
    exact Nat.le_add_right _ _

theorem misfit?_eq_none_of_le {c : Catalog} {m n : Nat} (h : m ≤ n) (fits : c.misfit? n = none) :
    c.misfit? m = none := by
  rw [misfit?_eq_none_iff_fit] at fits ⊢
  exact fits.of_le h (Nat.le_refl 0)

/-- Without instances there is nothing to reach. -/
theorem misfit?_zero (c : Catalog) : c.misfit? 0 = none := by
  rw [misfit?_eq_none_iff_fit]
  intro before e after _ x _ r hr
  exact absurd hr (Nat.not_lt_zero r)

/-! ## Bisection -/

/-- Between a count that fits and one that does not, bisection ends at one that fits right in front of
one that does not. -/
theorem bisect_spec {fits : Nat → Bool} {low high : Nat} (apart : low < high)
    (atLow : fits low = true) (atHigh : fits high = false) :
    bisect fits low high < high ∧ fits (bisect fits low high) = true ∧
      fits (bisect fits low high + 1) = false := by
  -- in every step the lower end fits and the upper end does not
  fun_induction bisect fits low high with
  | case1 low high wide middle fit ih =>
      exact ih (by omega) fit atHigh
  | case2 low high wide middle unfit ih =>
      obtain ⟨below, atEnd, after⟩ := ih (by omega) atLow (by simpa using unfit)
      exact ⟨by omega, atEnd, after⟩
  | case3 low high narrow =>
      have next : low + 1 = high := by omega
      exact ⟨apart, atLow, next ▸ atHigh⟩

theorem greatestFitting_spec {c : Catalog} {n : Nat} (fails : c.misfit? n ≠ none) :
    c.greatestFitting n < n ∧ c.misfit? (c.greatestFitting n) = none ∧
      c.misfit? (c.greatestFitting n + 1) ≠ none := by
  have positive : 0 < n := by
    rw [Nat.pos_iff_ne_zero]
    rintro rfl
    exact fails c.misfit?_zero
  have ends := @bisect_spec (fun count => (c.misfit? count).isNone) 0 n positive
    (by simp [misfit?_zero]) (by simpa [Option.isSome_iff_ne_none] using fails)
  simpa [greatestFitting, Option.isSome_iff_ne_none] using ends

/-- The limit is the last count that fits. -/
theorem misfit?_eq_none_iff_le_limit {c : Catalog} {n : Nat} (fails : c.misfit? n ≠ none) (m : Nat) :
    c.misfit? m = none ↔ m ≤ c.greatestFitting n := by
  obtain ⟨-, fits, after⟩ := greatestFitting_spec fails
  constructor
  · intro fit
    by_contra above
    exact after (misfit?_eq_none_of_le (by omega) fit)
  · intro below
    exact misfit?_eq_none_of_le below fits

/-! ## The main statement -/

theorem checkReach_eq_error_iff {c : Catalog} {n : Nat} {fault : OutOfReach} :
    c.checkReach n = .error fault ↔
      c.misfit? n = some fault.misfit ∧ fault.limit = c.greatestFitting n := by
  constructor
  · intro fails
    refine ⟨misfit?_of_checkReach fails, ?_⟩
    rw [checkReach, misfit?_of_checkReach fails] at fails
    exact (congrArg OutOfReach.limit (Except.error.inj fails)).symm
  · rintro ⟨found, limit⟩
    rw [checkReach, found, ← limit]

/-- Counts that fit are closed downwards, and where the check fails, the limit that it reports is
below the count and separates exactly the counts that fit from those that do not. Every count above it
is refused with the same limit. -/
theorem checkReach_threshold (c : Catalog) :
    (∀ m n, m ≤ n → c.checkReach n = .ok () → c.checkReach m = .ok ()) ∧
      ∀ n fault, c.checkReach n = .error fault →
        fault.limit < n ∧
        (∀ m ≤ fault.limit, c.checkReach m = .ok ()) ∧
        (∀ m > fault.limit, ∃ later, c.checkReach m = .error later ∧ later.limit = fault.limit) ∧
        IsGreatest {m | c.checkReach m = .ok ()} fault.limit := by
  constructor
  · intro m n fewer fits
    rw [checkReach_eq_ok_iff] at fits ⊢
    exact misfit?_eq_none_of_le fewer fits
  · intro n fault refused
    obtain ⟨found, limit⟩ := checkReach_eq_error_iff.mp refused
    have fails : c.misfit? n ≠ none := by simp [found]
    have fits : ∀ m, c.checkReach m = .ok () ↔ m ≤ fault.limit := by
      intro m
      rw [checkReach_eq_ok_iff, limit]
      exact misfit?_eq_none_iff_le_limit fails m
    refine ⟨?_, ?_, ?_, ?_⟩
    · rw [limit]
      exact (greatestFitting_spec fails).1
    · intro m below
      exact (fits m).mpr below
    · intro m above
      cases result : c.checkReach m with
      | ok done => exact absurd ((fits m).mp result) (by omega)
      | error later =>
          obtain ⟨found', limit'⟩ := checkReach_eq_error_iff.mp result
          -- both limits are the last count that fits
          have fails' : c.misfit? m ≠ none := by simp [found']
          have same : ∀ k, k ≤ later.limit ↔ k ≤ fault.limit := by
            intro k
            rw [limit', ← misfit?_eq_none_iff_le_limit fails' k, ← checkReach_eq_ok_iff, fits]
          exact ⟨later, rfl, Nat.le_antisymm ((same _).mp (Nat.le_refl _))
            ((same _).mpr (Nat.le_refl _))⟩
    · exact ⟨(fits _).mpr (Nat.le_refl _), fun m fit => (fits m).mp fit⟩

/-- Control: 342 branches in a row are one too many. -/
theorem checkReach_threshold_branches :
    ∃ fault, Generator.branchCatalog.checkReach 342 = .error fault ∧ fault.limit = 341 ∧
      (∀ m ≤ 341, Generator.branchCatalog.checkReach m = .ok ()) ∧
      ∀ m > 341, ∃ later, Generator.branchCatalog.checkReach m = .error later ∧
        later.limit = 341 := by
  have found : Generator.branchCatalog.misfit? 342 = some ⟨"b", 4100, ⟨-4096, 4094⟩⟩ := by
    decide +kernel
  have fits : Generator.branchCatalog.checkReach 341 = .ok () := by
    rw [checkReach_eq_ok_iff]
    decide +kernel
  have refused : Generator.branchCatalog.checkReach 342 =
      .error ⟨⟨"b", 4100, ⟨-4096, 4094⟩⟩, Generator.branchCatalog.greatestFitting 342⟩ := by
    rw [checkReach, found]
  obtain ⟨below, small, large, greatest⟩ :=
    (checkReach_threshold Generator.branchCatalog).2 _ _ refused
  have limit : Generator.branchCatalog.greatestFitting 342 = 341 :=
    Nat.le_antisymm (Nat.le_of_lt_succ below) (greatest.2 fits)
  rw [limit] at refused small large
  exact ⟨_, refused, rfl, small, large⟩

end Catalog

end EncoderVectors
