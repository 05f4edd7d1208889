import EncoderVectors.Proofs.Catalog.Threshold
import EncoderVectors.Proofs.Machine.Arithmetic

/-!
# The reach check in 64 bits

The reach check counts in integers without a bound. Here it is made a second time on a machine whose
numbers have 64 bits: the words of the body are added up entry by entry, the address of a form is moved
on from form to form, and the limit is found between counts of the machine.

The bytes of the whole body bound every number on the way: the totals of the words, the addresses, the
distances to either label, and all that is computed for the counts that are tried to find the limit. So
where the body has fewer than `2 ^ 63` bytes, no machine meets a result without room.

Main results:

* `Overflow.foldlM_visitEntry`: the walk over the entries ends where the exact one ends;
* `Overflow.bisect_ofNat`: bisection ends at the same count as the exact one;
* `Catalog.checkReach_never_overflows`: every machine reports what the exact check reports.
-/

set_option autoImplicit false

namespace EncoderVectors

/-! ## Entries -/

namespace Entry

theorem forms_bounds (e : Entry) : 0 < e.forms ∧ e.forms ≤ 3 := by
  rcases e.shape.targets_eq with ⟨-, single⟩ | ⟨-, all⟩
  · rw [forms, Shape.forms, single]
    decide
  · rw [forms, Shape.forms, all]
    decide

/-- An entry has at least as many words as instances. -/
theorem le_forms_mul (e : Entry) (count : Nat) : count ≤ e.forms * count :=
  Nat.le_mul_of_pos_left count e.forms_bounds.1

end Entry

/-- Only a catalog with entries has a misfit, and it has at least as many words as instances. -/
theorem Catalog.le_words_of_misfit? {c : Catalog} {count : Nat} (fails : c.misfit? count ≠ none) :
    count ≤ c.words count := by
  unfold Catalog.misfit? at fails
  unfold Catalog.words at fails ⊢
  cases listed : c.entries with
  | nil =>
      rw [listed] at fails
      exact absurd rfl fails
  | cons e es => exact Nat.le_trans (e.le_forms_mul count) (Nat.le_add_right _ _)

namespace Overflow

variable (o : Overflow)

/-! ## The check -/

/-- The bytes of so many words, as an offset. -/
def bytes (words : UInt64) : Except NoRoom Int64 := do
  o.mulOffsets (← o.castCount words) (.ofInt wordBytes)

/-- Adds the words of an entry, with `count` instances, to a total. -/
def addWords (count total : UInt64) (e : Entry) : Except NoRoom UInt64 := do
  o.addCounts total (← o.mulCounts (.ofNat e.forms) count)

/-- The number of words the catalog is emitted as, with `count` instances of each entry. -/
def words (c : Catalog) (count : UInt64) : Except NoRoom UInt64 :=
  c.entries.foldlM (o.addWords count) 0

/-- A part of the way through the body: the address it leads to, or a form that does not fit. -/
abbrev Walk := ExceptT Misfit (Except NoRoom) Int64

/-- The distance in bytes from a form at `pc` to its target, in a body that ends at `stop`. -/
def distance (stop pc : Int64) : Target → Except NoRoom Int64
  | .current => .ok 0
  | .forward => o.subOffsets stop pc
  | .backward => o.negOffset pc

/-- Goes past one form. To compare two numbers is to compare what they stand for: no result of it can
be without room. -/
def visitForm (e : Entry) (x : Transfer) (stop pc : Int64) (t : Target) : Walk := do
  let offset ← o.distance stop pc t
  if x.reach.contains offset.toInt then o.addOffsets pc (.ofInt wordBytes)
  else throw ⟨e.assemblyName, offset.toInt, x.reach⟩

/-- Goes past so many instances of a control transfer. -/
def visitInstances (e : Entry) (x : Transfer) (stop : Int64) : Nat → Int64 → Walk
  | 0, pc => return pc
  | count + 1, pc => do
      let next ← Target.all.foldlM (o.visitForm e x stop) pc
      visitInstances e x stop count next

/-- Goes past all words of an entry at once. -/
def skipEntry (count : UInt64) (pc : Int64) (e : Entry) : Except NoRoom Int64 := do
  o.addOffsets pc (← o.bytes (← o.mulCounts (.ofNat e.forms) count))

/-- Goes past the instances of an entry. -/
def visitEntry (count : UInt64) (stop pc : Int64) (e : Entry) : Walk :=
  match e.shape.transfer with
  | none => .lift (o.skipEntry count pc e)
  | some x => o.visitInstances e x stop count.toNat pc

/-- The first form out of reach with `count` instances of each entry. -/
def misfit? (c : Catalog) (count : UInt64) : Except NoRoom (Option Misfit) := do
  let stop ← o.bytes (← o.words c count)
  match ← (c.entries.foldlM (o.visitEntry count stop) 0).run with
  | .ok _ => return none
  | .error misfit => return some misfit

/-- The middle of a gap wider than one cuts it into two that are shorter. This also holds where the
ends are the wrong way round, for the gap is then the way around all numbers. -/
theorem shorter_of_middle {o : Overflow} {low high gap middle : UInt64}
    (gapped : o.subCounts high low = .ok gap) (wide : 1 < gap)
    (halved : o.addCounts low (gap / 2) = .ok middle) :
    (middle - low).toNat < (high - low).toNat ∧ (high - middle).toNat < (high - low).toNat := by
  obtain rfl := eq_of_settle gapped
  obtain rfl := eq_of_settle halved
  have wide' : 1 < (high - low).toNat := UInt64.lt_iff_toNat_lt.mp wide
  have low_lt := low.toNat_lt
  have high_lt := high.toNat_lt
  have two : (2 : UInt64).toNat = 2 := rfl
  simp only [UInt64.toNat_sub, UInt64.toNat_add, UInt64.toNat_div, two] at wide' ⊢
  omega

/-- Bisects between a count that fits and one that does not, down to the last that fits. -/
def bisect (fits : UInt64 → Except NoRoom Bool) (low high : UInt64) : Except NoRoom UInt64 :=
  match gapped : o.subCounts high low with
  | .error fault => .error fault
  | .ok gap =>
      if wide : 1 < gap then
        match halved : o.addCounts low (gap / 2) with
        | .error fault => .error fault
        | .ok middle =>
            have := shorter_of_middle gapped wide halved
            do if ← fits middle then bisect fits middle high else bisect fits low middle
      else .ok low
termination_by (high - low).toNat
decreasing_by
  · exact this.2
  · exact this.1

/-- The greatest count below `failing` whose forms all reach their labels. -/
def greatestFitting (c : Catalog) (failing : UInt64) : Except NoRoom UInt64 :=
  o.bisect (fun count => do return (← o.misfit? c count).isNone) 0 failing

/-- All labels are reached with `count` instances of each entry. What is reported is what the numbers
of the machine stand for. -/
def checkReach (c : Catalog) (count : UInt64) :
    Except NoRoom (Except Catalog.OutOfReach Unit) := do
  match ← o.misfit? c count with
  | none => return .ok ()
  | some misfit => return .error ⟨misfit, (← o.greatestFitting c count).toNat⟩

/-! ## Bytes -/

section Bytes

variable {o}

theorem bytes_nonneg (n : Nat) : 0 ≤ (n : Int) * wordBytes :=
  Int.mul_nonneg (Int.natCast_nonneg n) (Int.natCast_nonneg wordBytes)

/-- Where the bytes have room as an offset, the words have room as a count all the more. -/
theorem lt_of_bytes_lt {n : Nat} (room : n * wordBytes < 2 ^ 63) : n < 2 ^ 63 := by
  simp only [wordBytes] at room
  omega

theorem bytes_ofNat {n : Nat} (room : n * wordBytes < 2 ^ 63) :
    o.bytes (.ofNat n) = .ok (.ofInt (n * wordBytes)) := by
  have few : n < 2 ^ 63 := lt_of_bytes_lt room
  rw [bytes, castCount_ofNat few, ok_bind]
  exact mulOffsets_ofInt (by omega) (by decide) (by omega) (by decide) (by omega)

end Bytes

/-! ## Counting words -/

section Words

variable {o}

theorem mulCounts_forms {e : Entry} {count : Nat} (room : e.forms * count < 2 ^ 64) :
    o.mulCounts (.ofNat e.forms) (.ofNat count) = .ok (.ofNat (e.forms * count)) := by
  have few : e.forms ≤ 3 := e.forms_bounds.2
  have below : count < 2 ^ 64 := Nat.lt_of_le_of_lt (e.le_forms_mul count) room
  exact mulCounts_ofNat (by omega) below room

/-- Totals grow from entry to entry, so the last one bounds them all. -/
theorem foldlM_addWords (count : Nat) (es : List Entry) (total : Nat)
    (room : total + Entry.words count es < 2 ^ 64) :
    es.foldlM (o.addWords (.ofNat count)) (.ofNat total) =
      .ok (.ofNat (total + Entry.words count es)) := by
  induction es generalizing total with
  | nil => rfl
  | cons e es ih =>
      rw [Entry.words] at room
      have own : o.addWords (.ofNat count) (.ofNat total) e =
          .ok (.ofNat (total + e.forms * count)) := by
        rw [addWords, mulCounts_forms (by omega), ok_bind]
        exact addCounts_ofNat (by omega)
      rw [List.foldlM_cons, own, ok_bind, Entry.words, ← Nat.add_assoc]
      exact ih _ (by omega)

theorem words_ofNat {c : Catalog} {count : Nat} (room : c.words count < 2 ^ 64) :
    o.words c (.ofNat count) = .ok (.ofNat (c.words count)) := by
  have total : c.entries.foldlM (o.addWords (.ofNat count)) (.ofNat 0) = _ :=
    foldlM_addWords count c.entries 0 (by rwa [Nat.zero_add])
  rw [Nat.zero_add] at total
  exact total

end Words

/-! ## Walking through the body -/

/-- How a walk ends that meets the misfit, if there is one, or else leads to the address. -/
def walked (found : Option Misfit) (next : Int) : Walk :=
  match found with
  | none => pure (.ofInt next)
  | some misfit => throw misfit

section Walk

theorem lift_ok_bind (k : Int64) (f : Int64 → Walk) :
    (liftM (Except.ok k : Except NoRoom Int64) >>= f) = f k :=
  rfl

-- everything on the way lies in a body that ends at `stop`
variable {o} {stop pc : Int} (room : stop < 2 ^ 63) (front : 0 ≤ pc)
include room front

theorem distance_ofInt (ahead : pc ≤ stop) (t : Target) :
    o.distance (.ofInt stop) (.ofInt pc) t = .ok (.ofInt (t.offset stop pc)) := by
  cases t with
  | current => rfl
  | forward => exact subOffsets_ofInt front ahead room
  | backward => exact negOffset_ofInt front (by omega)

theorem toInt_distance (ahead : pc ≤ stop) (t : Target) :
    (Int64.ofInt (t.offset stop pc)).toInt = t.offset stop pc := by
  have bounds : -stop ≤ t.offset stop pc ∧ t.offset stop pc ≤ stop := by
    cases t with
    | current => simp only [Target.offset]; omega
    | forward => simp only [Target.offset]; omega
    | backward => simp only [Target.offset]; omega
  exact Int64.toInt_ofInt_of_le (by omega) (by omega)

theorem visitForm_ofInt (e : Entry) (x : Transfer) (ahead : pc + wordBytes ≤ stop) (t : Target) :
    o.visitForm e x (.ofInt stop) (.ofInt pc) t =
      if x.reach.contains (t.offset stop pc) then pure (.ofInt (pc + wordBytes))
      else throw ⟨e.assemblyName, t.offset stop pc, x.reach⟩ := by
  have inside : pc ≤ stop := by
    simp only [wordBytes] at ahead
    omega
  have step : o.addOffsets (.ofInt pc) (.ofInt wordBytes) = .ok (.ofInt (pc + wordBytes)) :=
    addOffsets_ofInt front (by decide) (by omega)
  rw [visitForm, distance_ofInt room front inside, lift_ok_bind, toInt_distance room front inside,
    step]
  rfl

/-- The forms for some targets are walked through as far as the exact search goes. -/
theorem foldlM_visitForm (e : Entry) (x : Transfer) (ts : List Target)
    (ahead : pc + ts.length * wordBytes ≤ stop) :
    ts.foldlM (o.visitForm e x (.ofInt stop)) (.ofInt pc) =
      walked ((x.misfit? stop ts pc).map fun offset => ⟨e.assemblyName, offset, x.reach⟩)
        (pc + ts.length * wordBytes) := by
  induction ts generalizing pc with
  | nil => simp [Transfer.misfit?, walked]
  | cons t ts ih =>
      have next : pc + wordBytes + ts.length * wordBytes =
          pc + (t :: ts).length * wordBytes := by
        simp only [List.length_cons, wordBytes]
        omega
      have here : pc + wordBytes ≤ stop := by
        simp only [List.length_cons, wordBytes] at ahead ⊢
        omega
      rw [List.foldlM_cons, visitForm_ofInt room front e x here, Transfer.misfit?]
      split
      · rw [pure_bind, ← next]
        exact ih (by omega) (next ▸ ahead)
      · rfl

theorem visitInstances_ofInt (e : Entry) (x : Transfer) (count : Nat)
    (ahead : pc + (3 * count : Nat) * wordBytes ≤ stop) :
    o.visitInstances e x (.ofInt stop) count (.ofInt pc) =
      walked ((x.misfitAmong? stop count pc).map fun offset => ⟨e.assemblyName, offset, x.reach⟩)
        (pc + (3 * count : Nat) * wordBytes) := by
  induction count generalizing pc with
  | zero => simp [visitInstances, Transfer.misfitAmong?, walked]
  | succ count ih =>
      have size : (Target.all.length : Int) = 3 := rfl
      have next : pc + Target.all.length * wordBytes + (3 * count : Nat) * wordBytes =
          pc + (3 * (count + 1) : Nat) * wordBytes := by
        simp only [size, wordBytes]
        omega
      have here : pc + Target.all.length * wordBytes ≤ stop := by
        simp only [size, wordBytes] at ahead ⊢
        omega
      rw [visitInstances, foldlM_visitForm room front e x _ here, Transfer.misfitAmong?]
      cases x.misfit? stop Target.all pc with
      | none =>
          rw [← next]
          exact ih (Int.add_nonneg front (bytes_nonneg _)) (next ▸ ahead)
      | some offset => rfl

theorem skipEntry_ofInt {e : Entry} {count : Nat}
    (ahead : pc + (e.forms * count : Nat) * wordBytes ≤ stop) :
    o.skipEntry (.ofNat count) (.ofInt pc) e =
      .ok (.ofInt (pc + (e.forms * count : Nat) * wordBytes)) := by
  have inside : e.forms * count * wordBytes < 2 ^ 63 := by omega
  have few : e.forms * count < 2 ^ 63 := lt_of_bytes_lt inside
  rw [skipEntry, mulCounts_forms (by omega), ok_bind, bytes_ofNat inside, ok_bind]
  exact addOffsets_ofInt front (by omega) (by omega)

/-- One entry takes the walk on by its words, unless one of its instances does not fit. -/
theorem visitEntry_ofInt {e : Entry} {count : Nat}
    (ahead : pc + (e.forms * count : Nat) * wordBytes ≤ stop) :
    o.visitEntry (.ofNat count) (.ofInt stop) (.ofInt pc) e =
      walked (e.shape.transfer.bind fun x => (x.misfitAmong? stop count pc).map
          fun offset => ⟨e.assemblyName, offset, x.reach⟩)
        (pc + (e.forms * count : Nat) * wordBytes) := by
  unfold visitEntry
  cases labelled : e.shape.transfer with
  | none =>
      simp only
      rw [skipEntry_ofInt room front ahead]
      rfl
  | some x =>
      have few : e.forms * count < 2 ^ 63 := lt_of_bytes_lt (by omega)
      have below : count ≤ e.forms * count := e.le_forms_mul count
      simp only
      rw [toNat_ofNat (by omega)]
      rw [Entry.forms_of_transfer labelled] at ahead ⊢
      exact visitInstances_ofInt room front e x count ahead

/-- The walk over the entries ends where the exact search ends. -/
theorem foldlM_visitEntry (count : Nat) (es : List Entry)
    (ahead : pc + Entry.words count es * wordBytes ≤ stop) :
    es.foldlM (o.visitEntry (.ofNat count) (.ofInt stop)) (.ofInt pc) =
      walked (Catalog.misfitFrom? count stop es pc) (pc + Entry.words count es * wordBytes) := by
  induction es generalizing pc with
  | nil => simp [Catalog.misfitFrom?, Entry.words, walked]
  | cons e es ih =>
      have next : pc + (e.forms * count : Nat) * wordBytes + Entry.words count es * wordBytes =
          pc + Entry.words count (e :: es) * wordBytes := by
        simp only [Entry.words, wordBytes]
        omega
      have here : pc + (e.forms * count : Nat) * wordBytes ≤ stop := by
        simp only [Entry.words, wordBytes] at ahead ⊢
        omega
      have later := ih (Int.add_nonneg front (bytes_nonneg _)) (next ▸ ahead)
      rw [List.foldlM_cons, visitEntry_ofInt room front here, Catalog.misfitFrom?, ← next]
      cases labelled : e.shape.transfer with
      | none => exact later
      | some x =>
          simp only [Option.bind_some]
          cases x.misfitAmong? stop count pc with
          | none => exact later
          | some offset => rfl

end Walk

section Check

variable {o}

/-- The walk starts at the first word and never leaves the body. -/
theorem misfit?_ofNat {c : Catalog} {count : Nat} (room : c.words count * wordBytes < 2 ^ 63) :
    o.misfit? c (.ofNat count) = .ok (c.misfit? count) := by
  have few : c.words count < 2 ^ 63 := lt_of_bytes_lt room
  have walk :
      c.entries.foldlM (o.visitEntry (.ofNat count) (.ofInt (c.words count * wordBytes))) 0 =
        walked (Catalog.misfitFrom? count (c.words count * wordBytes) c.entries 0) _ :=
    foldlM_visitEntry (by omega) (Int.le_refl 0) count c.entries
      (by rw [Int.zero_add]; exact Int.le_refl _)
  rw [misfit?, words_ofNat (by omega), ok_bind, bytes_ofNat room, ok_bind, walk, Catalog.misfit?,
    Int.natCast_mul]
  cases Catalog.misfitFrom? count (c.words count * wordBytes) c.entries 0 with
  | none => rfl
  | some misfit => rfl

/-! ## Bisection -/

/-- One step, where the gap and its middle have room. -/
theorem bisect_of_ok {fits : UInt64 → Except NoRoom Bool} {low high gap middle : UInt64}
    (gapped : o.subCounts high low = .ok gap) (halved : o.addCounts low (gap / 2) = .ok middle) :
    o.bisect fits low high =
      if 1 < gap then do
        if ← fits middle then o.bisect fits middle high else o.bisect fits low middle
      else .ok low := by
  rw [bisect]
  split
  · next fault failed =>
      rw [gapped] at failed
      cases failed
  · next gap' gapped' =>
      obtain rfl := Except.ok.inj (gapped.symm.trans gapped')
      split
      · next wide =>
          split
          · next fault failed =>
              rw [halved] at failed
              cases failed
          · next middle' halved' =>
              obtain rfl := Except.ok.inj (halved.symm.trans halved')
              rfl
      · rfl

theorem bisect_step {low high : Nat} (le : low ≤ high) (room : high < 2 ^ 64)
    (fits : UInt64 → Except NoRoom Bool) :
    o.bisect fits (.ofNat low) (.ofNat high) =
      if high - low > 1 then do
        if ← fits (.ofNat (low + (high - low) / 2)) then
          o.bisect fits (.ofNat (low + (high - low) / 2)) (.ofNat high)
        else o.bisect fits (.ofNat low) (.ofNat (low + (high - low) / 2))
      else .ok (.ofNat low) := by
  have gapped : o.subCounts (.ofNat high) (.ofNat low) = .ok (.ofNat (high - low)) :=
    subCounts_ofNat room le
  have half : UInt64.ofNat (high - low) / 2 = .ofNat ((high - low) / 2) :=
    (UInt64.ofNat_div (by omega) (by decide)).symm
  have halved : o.addCounts (.ofNat low) (UInt64.ofNat (high - low) / 2) =
      .ok (.ofNat (low + (high - low) / 2)) := by
    rw [half]
    exact addCounts_ofNat (by omega)
  have wide : 1 < UInt64.ofNat (high - low) ↔ high - low > 1 := by
    rw [UInt64.lt_iff_toNat_lt, toNat_ofNat (by omega)]
    rfl
  rw [bisect_of_ok gapped halved]
  simp only [wide]

/-- Bisection ends at the same count as the exact one, if all counts that it may try are judged as
they are there. -/
theorem bisect_ofNat {fits : UInt64 → Except NoRoom Bool} {exact : Nat → Bool} {low high : Nat}
    (le : low ≤ high) (room : high < 2 ^ 64)
    (agree : ∀ count ≤ high, fits (.ofNat count) = .ok (exact count)) :
    o.bisect fits (.ofNat low) (.ofNat high) = .ok (.ofNat (Catalog.bisect exact low high)) := by
  fun_induction Catalog.bisect exact low high with
  | case1 low high wide middle fit ih =>
      rw [bisect_step le room, if_pos wide, agree middle (by omega), fit]
      exact ih (by omega) room agree
  | case2 low high wide middle unfit ih =>
      rw [bisect_step le room, if_pos wide, agree middle (by omega), Bool.eq_false_iff.mpr unfit]
      exact ih (by omega) (by omega) fun count below => agree count (by omega)
  | case3 low high narrow => rw [bisect_step le room, if_neg narrow]

/-- All counts that are tried are smaller than the one that fails, so their bodies are no longer. -/
theorem greatestFitting_ofNat {c : Catalog} {failing : Nat} (few : failing < 2 ^ 64)
    (room : c.words failing * wordBytes < 2 ^ 63) :
    o.greatestFitting c (.ofNat failing) = .ok (.ofNat (c.greatestFitting failing)) := by
  refine bisect_ofNat (Nat.zero_le failing) few ?_
  intro count below
  have shorter : c.words count ≤ c.words failing := Entry.words_le_words below c.entries
  have probe : c.words count * wordBytes < 2 ^ 63 :=
    Nat.lt_of_le_of_lt (Nat.mul_le_mul_right wordBytes shorter) room
  rw [misfit?_ofNat probe]
  rfl

end Check

end Overflow

namespace Catalog

/-! ## The main statement -/

/-- A body with fewer than `2 ^ 63` bytes is checked without a result that has no room in 64 bits: a
machine that stops at such a result does not stop, and one that wraps has nothing to wrap. Either
reports what the check on exact integers reports: that all labels are reached, or the same misfit and
the same limit. -/
theorem checkReach_never_overflows (c : Catalog) (count : Nat)
    (room : c.words count * wordBytes < 2 ^ 63) (o : Overflow) :
    o.checkReach c (.ofNat count) = .ok (c.checkReach count) := by
  rw [Overflow.checkReach, Overflow.misfit?_ofNat room, Overflow.ok_bind, checkReach]
  cases found : c.misfit? count with
  | none => rfl
  | some misfit =>
      -- there is a misfit, so there are entries, and the count is below the number of words
      have fails : c.misfit? count ≠ none := by simp [found]
      have most : count ≤ c.words count := le_words_of_misfit? fails
      have bound : c.words count < 2 ^ 63 := Overflow.lt_of_bytes_lt room
      have few : count < 2 ^ 64 := by omega
      have limit : (UInt64.ofNat (c.greatestFitting count)).toNat = c.greatestFitting count :=
        Overflow.toNat_ofNat (Nat.lt_trans (greatestFitting_spec fails).1 few)
      simp only
      rw [Overflow.greatestFitting_ofNat few room, Overflow.ok_bind, limit]
      rfl

/-- Control: as many branches as have room. The second form of the first one would have to reach to
the end of a body that is eight bytes short of `2 ^ 63`. -/
theorem checkReach_never_overflows_brimful :
    Generator.branchCatalog.words 768614336404564650 * wordBytes = 2 ^ 63 - 8 ∧
      Overflow.stops.checkReach Generator.branchCatalog 768614336404564650 =
        .ok (.error ⟨⟨"b", 2 ^ 63 - 12, ⟨-4096, 4094⟩⟩, 341⟩) ∧
      Overflow.wraps.checkReach Generator.branchCatalog 768614336404564650 =
        .ok (.error ⟨⟨"b", 2 ^ 63 - 12, ⟨-4096, 4094⟩⟩, 341⟩) := by
  have size : Generator.branchCatalog.words 768614336404564650 * wordBytes = 2 ^ 63 - 8 := by
    decide
  have found : Generator.branchCatalog.misfit? 768614336404564650 =
      some ⟨"b", 2 ^ 63 - 12, ⟨-4096, 4094⟩⟩ := by
    decide +kernel
  have fails : Generator.branchCatalog.misfit? 768614336404564650 ≠ none := by
    simp [found]
  have most : Generator.branchCatalog.misfit? 341 = none := by decide +kernel
  have more : Generator.branchCatalog.misfit? 342 ≠ none := by decide +kernel
  have limit : Generator.branchCatalog.greatestFitting 768614336404564650 = 341 := by
    rw [misfit?_eq_none_iff_le_limit fails] at most
    rw [Ne, misfit?_eq_none_iff_le_limit fails] at more
    omega
  have refused : Generator.branchCatalog.checkReach 768614336404564650 =
      .error ⟨⟨"b", 2 ^ 63 - 12, ⟨-4096, 4094⟩⟩, 341⟩ := by
    rw [checkReach, found, limit]
  have reported := checkReach_never_overflows Generator.branchCatalog 768614336404564650
    (by rw [size]; decide)
  rw [refused] at reported
  exact ⟨size, reported .stops, reported .wraps⟩

-- one branch more has no room, and the two machines part
example : Overflow.stops.misfit? Generator.branchCatalog 768614336404564651 =
    .error ⟨2 ^ 63 + 4⟩ := rfl

example : Overflow.wraps.misfit? Generator.branchCatalog 768614336404564651 =
    .ok (some ⟨"b", -2 ^ 63, ⟨-4096, 4094⟩⟩) := rfl

end Catalog

end EncoderVectors
