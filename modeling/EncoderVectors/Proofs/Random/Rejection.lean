import Mathlib.Data.Stream.Defs
import EncoderVectors.Random.Uniform

/-!
# Draws that go on until a word is kept

`drawBelow` gives up after a fixed number of refused words. This module says what a draw is without
that end: `Draws` relates a stream to the number drawn from it, for a range given by its two ends,
and holds when some word is kept at all. The number of words it looks at is only counted.

Main results:

* `Draws.mem`: what is drawn lies in its range;
* `Draws.drawBelow`: `drawBelow` finds the same number whenever its patience lasts;
* `Draws.exists_one`: every number of a range is drawn from some stream, with its first raw word.
-/

set_option autoImplicit false

namespace EncoderVectors

/-! ## Ranges -/

/-- A range of whole numbers, both ends included. -/
structure Extent where
  /-- The least number. -/
  least : Int
  /-- The greatest number. -/
  greatest : Int
  deriving DecidableEq, Repr

namespace Extent

/-- How many numbers the range holds. -/
def count (r : Extent) : Nat :=
  (r.greatest - r.least + 1).toNat

instance : Membership Int Extent where
  mem r v := r.least ≤ v ∧ v ≤ r.greatest

theorem mem_iff {r : Extent} {v : Int} : v ∈ r ↔ r.least ≤ v ∧ v ≤ r.greatest :=
  Iff.rfl

instance (r : Extent) (v : Int) : Decidable (v ∈ r) :=
  decidable_of_iff _ mem_iff.symm

/-- The numbers of a range are those at a distance below its count from the least. -/
theorem mem_iff_exists_lt {r : Extent} {v : Int} :
    v ∈ r ↔ ∃ k, k < r.count ∧ v = r.least + (k : Int) := by
  constructor
  · rintro ⟨low, high⟩
    refine ⟨(v - r.least).toNat, ?_, ?_⟩
    · unfold count
      omega
    · omega
  · rintro ⟨k, below, rfl⟩
    unfold count at below
    exact ⟨by omega, by omega⟩

end Extent

/-! ## Drawing from a range -/

/-- What follows an action runs from the state the action leaves. -/
theorem run_bind_of_run {σ α β : Type} {x : StateM σ α} {f : α → StateM σ β} {s s' : σ} {a : α}
    (h : x.run s = (a, s')) : (x >>= f).run s = (f a).run s' := by
  rw [StateT.run_bind, h]
  rfl

section Draws

variable {σ : Type} [WordStream σ] {m : DrawMethod} {r : Extent}

/-- A number of the range is drawn from the stream by looking at no more than the given number of raw
words: each is multiplied by the size of the range; the first whose lower half lies in the zone is
kept, and the upper half is counted from the least number. -/
inductive Draws (m : DrawMethod) (r : Extent) : Nat → σ → Int → σ → Prop where
  /-- The first raw word is kept. -/
  | kept {looks : Nat} {s s' : σ} {raw : Fin m.size} (read : (rawWord m).run s = (raw, s'))
      (inside : raw.val * r.count % m.size ≤ m.zone r.count) :
      Draws m r (looks + 1) s (r.least + ((raw.val * r.count / m.size : Nat) : Int)) s'
  /-- The first raw word is refused, and the draw goes on. -/
  | refused {looks : Nat} {s s' s'' : σ} {v : Int} {raw : Fin m.size}
      (read : (rawWord m).run s = (raw, s'))
      (outside : m.zone r.count < raw.val * r.count % m.size)
      (rest : Draws m r looks s' v s'') : Draws m r (looks + 1) s v s''

theorem DrawMethod.size_pos (m : DrawMethod) : 0 < m.size := by
  cases m <;> decide

/-- What is drawn lies in the range. -/
theorem Draws.mem {looks : Nat} {s s' : σ} {v : Int} (h : Draws m r looks s v s')
    (pos : 0 < r.count) : v ∈ r := by
  induction h with
  | @kept _ _ _ raw _ _ =>
      -- a raw word is less than the number of words, so the upper half is less than the count
      have half : raw.val * r.count / m.size < r.count := (m.number r.count pos raw).isLt
      exact Extent.mem_iff_exists_lt.mpr ⟨_, half, rfl⟩
  | refused _ _ _ ih => exact ih

/-- One raw word of a patient draw. -/
theorem drawPatiently_succ {bound : Nat} (pos : 0 < bound) (patience : Nat) {s s' : σ}
    {raw : Fin m.size} (read : (rawWord m).run s = (raw, s')) :
    (drawPatiently m bound pos (patience + 1)).run s =
      if m.accepts bound raw.val then (m.number bound pos raw, s')
      else (drawPatiently m bound pos patience).run s' := by
  rw [drawPatiently, run_bind_of_run read]
  split <;> rfl

/-- The patient draw finds what is drawn and stops where the draw stops, if it looks far enough. -/
theorem Draws.drawPatiently {looks patience : Nat} {s s' : σ} {v : Int}
    (h : Draws m r looks s v s') {bound : Nat} (pos : 0 < bound) (size : r.count = bound)
    (enough : looks ≤ patience) :
    ∃ k : Fin bound, v = r.least + (k.val : Int) ∧
      (drawPatiently m bound pos patience).run s = (k, s') := by
  subst size
  induction h generalizing patience with
  | @kept _ _ _ raw read inside =>
      obtain ⟨patience, rfl⟩ : ∃ p, patience = p + 1 := ⟨patience - 1, by omega⟩
      have keeps : m.accepts r.count raw.val = true := decide_eq_true inside
      refine ⟨m.number r.count pos raw, rfl, ?_⟩
      rw [drawPatiently_succ pos patience read, if_pos keeps]
  | @refused _ _ _ _ _ raw read outside _ ih =>
      obtain ⟨patience, rfl⟩ : ∃ p, patience = p + 1 := ⟨patience - 1, by omega⟩
      have refuses : ¬m.accepts r.count raw.val = true := by
        simpa [DrawMethod.accepts] using outside
      obtain ⟨k, number, same⟩ := ih (Nat.le_of_succ_le_succ enough)
      refine ⟨k, number, ?_⟩
      rw [drawPatiently_succ pos patience read, if_neg refuses, same]

theorem Draws.drawBelow {looks : Nat} {s s' : σ} {v : Int} (h : Draws m r looks s v s')
    {bound : Nat} (pos : 0 < bound) (size : r.count = bound) (enough : looks ≤ drawPatience) :
    ∃ k : Fin bound, v = r.least + (k.val : Int) ∧ (drawBelow m bound pos).run s = (k, s') :=
  h.drawPatiently pos size enough

end Draws

/-! ## Every number is drawn

The least raw word that stands for a number has a lower half below the bound, and no zone is smaller
than that. -/

namespace DrawMethod

/-- The zone leaves room for lower halves below the bound. -/
theorem le_zone (m : DrawMethod) {bound : Nat} (pos : 0 < bound) (small : 2 * bound ≤ m.size) :
    bound - 1 ≤ m.zone bound := by
  have remainder : (m.size - bound) % bound < bound := Nat.mod_lt _ pos
  cases m with
  | modulus =>
      simp only [zone]
      omega
  | shifted | wide =>
      simp only [zone]
      exact Nat.sub_le_sub_right Nat.le_shiftLeft 1

/-- The least raw word that stands for a number. -/
def leastRaw (m : DrawMethod) (bound k : Nat) : Nat :=
  (k * m.size + (bound - 1)) / bound

/-- The product of the least raw word lies just above the number's share of the words. -/
theorem leastRaw_mul (m : DrawMethod) {bound : Nat} (pos : 0 < bound) (k : Nat) :
    ∃ low, low < bound ∧ m.leastRaw bound k * bound = k * m.size + low := by
  have division := Nat.div_add_mod (k * m.size + (bound - 1)) bound
  have remainder := Nat.mod_lt (k * m.size + (bound - 1)) pos
  refine ⟨(bound - 1) - (k * m.size + (bound - 1)) % bound, by omega, ?_⟩
  rw [leastRaw, Nat.mul_comm]
  omega

theorem leastRaw_lt (m : DrawMethod) {bound k : Nat} (below : k < bound)
    (small : 2 * bound ≤ m.size) : m.leastRaw bound k < m.size := by
  obtain ⟨low, lt, product⟩ := m.leastRaw_mul (Nat.zero_lt_of_lt below) k
  have share : (k + 1) * m.size ≤ bound * m.size := Nat.mul_le_mul_right _ below
  have total : m.leastRaw bound k * bound < m.size * bound := by
    rw [product, Nat.mul_comm m.size]
    rw [Nat.add_mul] at share
    omega
  exact Nat.lt_of_mul_lt_mul_right total

end DrawMethod

/-- An endless sequence of words is a stream of its words. -/
instance : WordStream (Stream' UInt32) where
  next s := (s.head, s.tail)

/-- Every raw word stands at the head of some sequence before any other sequence. -/
theorem exists_rawWord (m : DrawMethod) (raw : Fin m.size) (rest : Stream' UInt32) :
    ∃ s : Stream' UInt32, (rawWord m).run s = (raw, rest) := by
  cases m with
  | modulus | shifted =>
      refine ⟨Stream'.cons (UInt32.ofNat raw.val) rest, Prod.ext (Fin.ext ?_) rfl⟩
      exact UInt32.toNat_ofNat_of_lt' raw.isLt
  | wide =>
      -- the low half comes first
      refine ⟨Stream'.cons (UInt32.ofNat (raw.val % UInt32.size))
        (Stream'.cons (UInt32.ofNat (raw.val / UInt32.size)) rest), Prod.ext (Fin.ext ?_) rfl⟩
      have low : raw.val % UInt32.size < UInt32.size := Nat.mod_lt _ (by decide)
      have high : raw.val / UInt32.size < UInt32.size := by
        have := raw.isLt
        simp only [DrawMethod.size, UInt32.size, UInt64.size] at *
        omega
      change (UInt32.ofNat _).toNat + UInt32.size * (UInt32.ofNat _).toNat = raw.val
      rw [UInt32.toNat_ofNat_of_lt' low, UInt32.toNat_ofNat_of_lt' high]
      exact Nat.mod_add_div _ _

/-- Every number of a range is drawn from some sequence of words, and the first raw word gives it. -/
theorem Draws.exists_one (m : DrawMethod) {r : Extent} {v : Int} (h : v ∈ r)
    (small : 2 * r.count ≤ m.size) (rest : Stream' UInt32) :
    ∃ s : Stream' UInt32, Draws m r 1 s v rest := by
  obtain ⟨k, below, rfl⟩ := Extent.mem_iff_exists_lt.mp h
  have pos : 0 < r.count := Nat.zero_lt_of_lt below
  obtain ⟨low, lt, product⟩ := m.leastRaw_mul pos k
  have fits : low < m.size := by omega
  have lower : m.leastRaw r.count k * r.count % m.size = low := by
    rw [product, Nat.mul_comm, Nat.mul_add_mod, Nat.mod_eq_of_lt fits]
  have upper : m.leastRaw r.count k * r.count / m.size = k := by
    rw [product, Nat.mul_comm, Nat.mul_add_div m.size_pos, Nat.div_eq_of_lt fits, Nat.add_zero]
  obtain ⟨s, read⟩ := exists_rawWord m ⟨m.leastRaw r.count k, m.leastRaw_lt below small⟩ rest
  have zone := m.le_zone pos small
  have inside : m.leastRaw r.count k * r.count % m.size ≤ m.zone r.count := by omega
  refine ⟨s, ?_⟩
  rw [← upper]
  exact .kept read inside

end EncoderVectors
