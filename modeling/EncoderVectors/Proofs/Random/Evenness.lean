import Mathlib.Algebra.BigOperators.Group.Finset.Basic
import Mathlib.Data.Finset.Card
import Mathlib.Order.Interval.Finset.Nat
import EncoderVectors.Proofs.Instance.Drawn

/-!
# Draws favour no number

A raw word is kept when the lower half of its product with the size of the range lies in the zone, and
the upper half is the number. The products are the multiples of the size of the range, one for each
raw word; the zone has room for a whole number of them, and that number is the same wherever the zone
starts (`DrawMethod.kept_iff`). So every number is given to equally many raw words.

Main results:

* `DrawMethod.card_number`: each number below a bound is that of `DrawMethod.share` kept words;
* `DrawMethod.size_le_two_mul_share`: the kept words are at least half of all;
* `DrawMethod.draws_evenly`: no range is drawn from with a bias, in particular none of an operand.
-/

set_option autoImplicit false

namespace EncoderVectors

namespace DrawMethod

/-! ## The zone -/

theorem size_eq_two_pow (m : DrawMethod) : m.size = 2 ^ m.bits := by
  cases m <;> rfl

/-- How many raw words stand for each number below a bound. -/
def share (m : DrawMethod) (bound : Nat) : Nat :=
  match m with
  | .modulus => m.size / bound
  | .shifted | .wide => 2 ^ (m.bits - (bound.log2 + 1))

section Zone

variable {m : DrawMethod} {bound : Nat}

/-- A bound that is moved up as far as it goes has the highest bit of a raw word. -/
theorem two_pow_mul_bounds (pos : 0 < bound) (below : bound < m.size) :
    2 ^ (m.bits - (bound.log2 + 1)) * bound ≤ m.size ∧
      m.size ≤ 2 * (2 ^ (m.bits - (bound.log2 + 1)) * bound) := by
  have low : 2 ^ bound.log2 ≤ bound := Nat.log2_self_le (Nat.ne_of_gt pos)
  have high : bound < 2 ^ (bound.log2 + 1) := Nat.lt_log2_self
  have fits : bound.log2 < m.bits := by
    apply (Nat.pow_lt_pow_iff_right Nat.one_lt_two).mp
    rw [← m.size_eq_two_pow]
    exact Nat.lt_of_le_of_lt low below
  have top : 2 ^ (m.bits - (bound.log2 + 1)) * 2 ^ (bound.log2 + 1) = m.size := by
    rw [← Nat.pow_add, m.size_eq_two_pow]
    congr 1
    omega
  constructor
  · rw [← top]
    exact Nat.mul_le_mul_left _ (Nat.le_of_lt high)
  · calc m.size = 2 ^ (m.bits - (bound.log2 + 1)) * (2 * 2 ^ bound.log2) := by
          rw [← top, Nat.pow_succ, Nat.mul_comm (2 ^ bound.log2)]
      _ ≤ 2 ^ (m.bits - (bound.log2 + 1)) * (2 * bound) :=
          Nat.mul_le_mul_left _ (Nat.mul_le_mul_left 2 low)
      _ = 2 * (2 ^ (m.bits - (bound.log2 + 1)) * bound) := Nat.mul_left_comm _ _ _

theorem share_pos (pos : 0 < bound) (below : bound < m.size) : 0 < m.share bound := by
  cases m with
  | modulus => exact Nat.div_pos (Nat.le_of_lt below) pos
  | shifted | wide => exact Nat.two_pow_pos _

theorem share_mul_le_size (pos : 0 < bound) (below : bound < m.size) :
    m.share bound * bound ≤ m.size := by
  cases m with
  | modulus => exact Nat.div_mul_le_self _ _
  | shifted | wide => exact (two_pow_mul_bounds pos below).1

/-- At least half of the raw words belong to some number. -/
theorem size_le_two_mul_share (pos : 0 < bound) (below : bound < m.size) :
    m.size ≤ 2 * (m.share bound * bound) := by
  cases m with
  | modulus =>
      -- what is left over is less than the bound, and the bound is kept at least once
      have whole := Nat.div_add_mod (DrawMethod.modulus.size) bound
      have rest := Nat.mod_lt DrawMethod.modulus.size pos
      have once : bound ≤ DrawMethod.modulus.size / bound * bound :=
        Nat.le_mul_of_pos_left _ (Nat.div_pos (Nat.le_of_lt below) pos)
      rw [Nat.mul_comm] at whole
      simp only [share]
      omega
  | shifted | wide => exact (two_pow_mul_bounds pos below).2

/-- The zone has room for the products of as many raw words as each number gets. -/
theorem zone_succ (pos : 0 < bound) (below : bound < m.size) :
    m.zone bound + 1 = m.share bound * bound := by
  have some := Nat.mul_pos (share_pos pos below) pos
  cases m with
  | modulus =>
      have whole := Nat.div_add_mod (DrawMethod.modulus.size) bound
      have rest := Nat.mod_lt DrawMethod.modulus.size pos
      rw [Nat.mul_comm] at whole
      simp only [zone, share]
      rw [← Nat.mod_eq_sub_mod (Nat.le_of_lt below)]
      omega
  | shifted | wide =>
      simp only [zone, share] at some ⊢
      rw [Nat.shiftLeft_eq, Nat.mul_comm bound]
      omega

end Zone

/-! ## Products in the zone -/

/-- The first multiple that does not lie below the start tells which others do. -/
theorem le_mul_iff {bound start first low : Nat} (lt : low < bound)
    (product : first * bound = start + low) (raw : Nat) : start ≤ raw * bound ↔ first ≤ raw := by
  constructor
  · intro above
    by_contra fewer
    have next : (raw + 1) * bound ≤ first * bound := Nat.mul_le_mul_right _ (by omega)
    rw [product, Nat.succ_mul] at next
    omega
  · intro after
    have more : first * bound ≤ raw * bound := Nat.mul_le_mul_right _ after
    omega

/-- Upper and lower half of a product say between which limits it lies. -/
theorem halves_iff {size zone : Nat} (room : zone < size) (k product : Nat) :
    product % size ≤ zone ∧ product / size = k ↔
      k * size ≤ product ∧ ¬ k * size + (zone + 1) ≤ product := by
  have whole := Nat.div_add_mod product size
  constructor
  · rintro ⟨lower, rfl⟩
    rw [Nat.mul_comm] at whole
    omega
  · rintro ⟨above, within⟩
    obtain ⟨low, rfl⟩ := Nat.exists_eq_add_of_le above
    have less : low < size := by omega
    rw [Nat.mul_comm k, Nat.mul_add_mod, Nat.mod_eq_of_lt less,
      Nat.mul_add_div (Nat.zero_lt_of_lt less), Nat.div_eq_of_lt less]
    omega

section Kept

variable {m : DrawMethod} {bound k : Nat}

/-- The raw words that are kept for a number follow upon one another, from the least one on. -/
theorem kept_iff (below : k < bound) (small : bound < m.size) (raw : Nat) :
    m.accepts bound raw = true ∧ raw * bound / m.size = k ↔
      m.leastRaw bound k ≤ raw ∧ raw < m.leastRaw bound k + m.share bound := by
  have pos : 0 < bound := Nat.zero_lt_of_lt below
  have zone := zone_succ pos small
  have room : m.zone bound < m.size := by
    have fits := share_mul_le_size pos small
    omega
  -- the products step over the start of the zone and over its end by the same amount
  obtain ⟨low, lt, first⟩ := m.leastRaw_mul pos k
  have last : (m.leastRaw bound k + m.share bound) * bound =
      k * m.size + (m.zone bound + 1) + low := by
    rw [Nat.add_mul, first, zone]
    omega
  rw [accepts, decide_eq_true_iff, halves_iff room, le_mul_iff lt first, le_mul_iff lt last]
  omega

/-- No word that is too great to be a raw word stands for a number below the bound. -/
theorem lt_size_of_upper (below : k < bound) {raw : Nat} (upper : raw * bound / m.size = k) :
    raw < m.size := by
  by_contra beyond
  have product : m.size * bound ≤ raw * bound := Nat.mul_le_mul_right _ (Nat.le_of_not_lt beyond)
  have half : m.size * bound / m.size ≤ raw * bound / m.size := Nat.div_le_div_right product
  rw [Nat.mul_div_cancel_left _ m.size_pos, upper] at half
  omega

end Kept

/-! ## Counting -/

/-- The raw words that are kept in a draw from a range. -/
def kept (m : DrawMethod) (r : Extent) : Finset (Fin m.size) :=
  {raw | m.accepts r.count raw.val = true}

/-- The number of the range that a raw word stands for. -/
def value (m : DrawMethod) (r : Extent) (raw : Fin m.size) : Int :=
  r.least + ((raw.val * r.count / m.size : Nat) : Int)

section Counting

variable {m : DrawMethod} {r : Extent}

/-- Each number is that of equally many kept words. -/
theorem card_number {k : Nat} (below : k < r.count) (small : r.count < m.size) :
    ((m.kept r).filter fun raw => raw.val * r.count / m.size = k).card = m.share r.count := by
  -- the words of a number are a run, and a run is as long as its ends are apart
  have words : ((m.kept r).filter fun raw => raw.val * r.count / m.size = k).map Fin.valEmbedding =
      Finset.Ico (m.leastRaw r.count k) (m.leastRaw r.count k + m.share r.count) := by
    ext raw
    rw [Finset.mem_Ico, ← kept_iff below small, Finset.mem_map]
    constructor
    · rintro ⟨word, inside, rfl⟩
      rw [Finset.mem_filter, kept, Finset.mem_filter] at inside
      exact ⟨inside.1.2, inside.2⟩
    · rintro ⟨keeps, upper⟩
      refine ⟨⟨raw, lt_size_of_upper below upper⟩, ?_, rfl⟩
      rw [Finset.mem_filter, kept, Finset.mem_filter]
      exact ⟨⟨Finset.mem_univ _, keeps⟩, upper⟩
  rw [← Finset.card_map Fin.valEmbedding, words, Nat.card_Ico, Nat.add_sub_cancel_left]

/-- All kept words together. -/
theorem card_kept (pos : 0 < r.count) (small : r.count < m.size) :
    (m.kept r).card = m.share r.count * r.count := by
  have numbers : Set.MapsTo (fun raw : Fin m.size => raw.val * r.count / m.size) (m.kept r)
      (Finset.range r.count) := by
    intro raw _
    exact Finset.mem_coe.mpr (Finset.mem_range.mpr (m.number r.count pos raw).isLt)
  rw [Finset.card_eq_sum_card_fiberwise numbers,
    Finset.sum_const_nat fun k inside => card_number (Finset.mem_range.mp inside) small,
    Finset.card_range, Nat.mul_comm]

/-- Draws from the range by the method favour no number: what is kept stands for a number of the range,
every number has the same share of the kept words, and half of all words are kept or more. -/
structure Unbiased (m : DrawMethod) (r : Extent) : Prop where
  /-- A kept word stands for a number of the range. -/
  within : ∀ raw ∈ m.kept r, m.value r raw ∈ r
  /-- All numbers of the range have equally many words, and each has one. -/
  even : ∃ words, 0 < words ∧
    ∀ v ∈ r, ((m.kept r).filter fun raw => m.value r raw = v).card = words
  /-- At least half of the raw words are kept. -/
  half : m.size ≤ 2 * (m.kept r).card

theorem unbiased_of_lt (pos : 0 < r.count) (small : r.count < m.size) : m.Unbiased r where
  within := by
    intro raw _
    exact Extent.mem_iff_exists_lt.mpr ⟨_, (m.number r.count pos raw).isLt, rfl⟩
  even := by
    refine ⟨m.share r.count, share_pos pos small, ?_⟩
    intro v inside
    obtain ⟨k, below, rfl⟩ := Extent.mem_iff_exists_lt.mp inside
    rw [← card_number below small]
    congr 1
    apply Finset.filter_congr
    intro raw _
    rw [value]
    omega
  half := by
    rw [card_kept pos small]
    exact size_le_two_mul_share pos small

/-! ## The main statement -/

/-- Whatever a range holds, as long as there are more raw words than numbers in it, each of the methods
draws from it without a bias. The indices of registers, displacements, constants and barrier sets
are drawn from such ranges. And a draw does with each raw word what is counted here: it yields the
number of a word that is kept, and looks at the next word after any other. -/
theorem draws_evenly :
    (∀ (m : DrawMethod) (r : Extent), 1 ≤ r.count → r.count < m.size → m.Unbiased r) ∧
    (∀ c : RegisterClass, modulus.Unbiased c.indices) ∧
    modulus.Unbiased Address.offsets ∧
    (∀ role : ImmediateRole, shifted.Unbiased role.values) ∧
    wide.Unbiased Barrier.numbers ∧
    ∀ {σ : Type} [WordStream σ] (m : DrawMethod) (r : Extent) (pos : 0 < r.count) (patience : Nat)
      (s s' : σ) (raw : Fin m.size), (rawWord m).run s = (raw, s') →
      (raw ∈ m.kept r → ∃ k, m.value r raw = r.least + (k.val : Int) ∧
        (drawPatiently m r.count pos (patience + 1)).run s = (k, s')) ∧
      (raw ∉ m.kept r → (drawPatiently m r.count pos (patience + 1)).run s =
        (drawPatiently m r.count pos patience).run s') := by
  refine ⟨fun m r => unbiased_of_lt, ?_, ?_, ?_, ?_, ?_⟩
  · intro c
    apply unbiased_of_lt
    · rw [c.count_indices]
      exact c.size_pos
    · cases c <;> decide
  · apply unbiased_of_lt <;> decide
  · intro role
    apply unbiased_of_lt
    · rw [role.count_values]
      exact role.bound_pos
    · cases role <;> decide
  · apply unbiased_of_lt <;> decide
  · intro σ _ m r pos patience s s' raw read
    have step := drawPatiently_succ pos patience read
    have inside : raw ∈ m.kept r ↔ m.accepts r.count raw.val = true := by
      rw [kept, Finset.mem_filter]
      exact and_iff_right (Finset.mem_univ raw)
    constructor
    · intro keeps
      rw [if_pos (inside.mp keeps)] at step
      exact ⟨m.number r.count pos raw, rfl, step⟩
    · intro refuses
      rw [if_neg fun keeps => refuses (inside.mpr keeps)] at step
      exact step

/-- Control: three numbers around zero from 64-bit words, and the greatest range there is for 32-bit
words, of which one word is refused. -/
theorem draws_evenly_extremes :
    (1 ≤ Extent.count ⟨-1, 1⟩ ∧ Extent.count ⟨-1, 1⟩ < wide.size ∧ wide.Unbiased ⟨-1, 1⟩) ∧
      1 ≤ Extent.count ⟨0, 4294967294⟩ ∧ Extent.count ⟨0, 4294967294⟩ < modulus.size ∧
        modulus.Unbiased ⟨0, 4294967294⟩ := by
  obtain ⟨all, -⟩ := draws_evenly
  exact ⟨⟨by decide, by decide, all _ _ (by decide) (by decide)⟩, by decide, by decide,
    all _ _ (by decide) (by decide)⟩

end Counting

end DrawMethod

end EncoderVectors
