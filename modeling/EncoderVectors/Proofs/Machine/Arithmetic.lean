import Mathlib.Algebra.Group.Int.Defs
import Mathlib.Algebra.Group.Nat.Defs

/-!
# Arithmetic in 64 bits

Numbers of 64 bits come in two kinds here: counts are unsigned, offsets are signed. A result may have
no room in such a number, and then there are two kinds of machine. One drops the bits that are too many
and goes on with another number, and one stops (`Overflow`). Every operation is told the exact result
beside the number that the machine comes to, so that a machine that stops does so at the first number
that does not stand for its result.

Where a result has room, either machine comes to the number that stands for it, and goes on: that is
said once for each operation.
-/

set_option autoImplicit false

namespace EncoderVectors

/-- What a machine does with a result that has no room in 64 bits. -/
inductive Overflow where
  /-- It goes on with the bits that have room. -/
  | wraps
  /-- It stops. -/
  | stops
  deriving DecidableEq, Repr

/-- A result that has no room in 64 bits. -/
structure NoRoom where
  /-- The result. -/
  exact : Int
  deriving DecidableEq, Repr

namespace Overflow

variable (o : Overflow)

/-- What follows when a machine comes to a number that stands for `value`, where the result of the
operation is `exact`. -/
def settle {α : Type} (exact value : Int) (number : α) : Except NoRoom α :=
  match o with
  | .wraps => .ok number
  | .stops => if value = exact then .ok number else .error ⟨exact⟩

/-- A count that was computed. -/
def settleCount (exact : Int) (n : UInt64) : Except NoRoom UInt64 :=
  o.settle exact n.toNat n

/-- An offset that was computed. -/
def settleOffset (exact : Int) (k : Int64) : Except NoRoom Int64 :=
  o.settle exact k.toInt k

/-- The sum of two counts. -/
def addCounts (m n : UInt64) : Except NoRoom UInt64 :=
  o.settleCount (m.toNat + n.toNat) (m + n)

/-- The difference of two counts. -/
def subCounts (m n : UInt64) : Except NoRoom UInt64 :=
  o.settleCount (m.toNat - n.toNat) (m - n)

/-- The product of two counts. -/
def mulCounts (m n : UInt64) : Except NoRoom UInt64 :=
  o.settleCount (m.toNat * n.toNat) (m * n)

/-- A count as an offset: the same bits. -/
def castCount (n : UInt64) : Except NoRoom Int64 :=
  o.settleOffset n.toNat n.toInt64

/-- The sum of two offsets. -/
def addOffsets (j k : Int64) : Except NoRoom Int64 :=
  o.settleOffset (j.toInt + k.toInt) (j + k)

/-- The difference of two offsets. -/
def subOffsets (j k : Int64) : Except NoRoom Int64 :=
  o.settleOffset (j.toInt - k.toInt) (j - k)

/-- The product of two offsets. -/
def mulOffsets (j k : Int64) : Except NoRoom Int64 :=
  o.settleOffset (j.toInt * k.toInt) (j * k)

/-- An offset the other way. -/
def negOffset (k : Int64) : Except NoRoom Int64 :=
  o.settleOffset (-k.toInt) (-k)

section Settled

variable {o}

theorem settle_of_eq {α : Type} {exact value : Int} (h : value = exact) (number : α) :
    o.settle exact value number = .ok number := by
  cases o with
  | wraps => rfl
  | stops => exact if_pos h

/-- A machine that goes on goes on with the number it came to. -/
theorem eq_of_settle {α : Type} {exact value : Int} {number result : α}
    (h : o.settle exact value number = .ok result) : result = number := by
  cases o with
  | wraps => exact (Except.ok.inj h).symm
  | stops =>
      by_cases room : value = exact
      · rw [settle_of_eq room] at h
        exact (Except.ok.inj h).symm
      · simp only [settle, if_neg room] at h
        cases h

end Settled

/-! ## Results that have room -/

section Room

variable {o}

theorem ok_bind {α β : Type} (a : α) (f : α → Except NoRoom β) : (Except.ok a >>= f) = f a :=
  rfl

-- the bound as a power: the arithmetic of the side conditions cannot see through its name
theorem toNat_ofNat {n : Nat} (room : n < 2 ^ 64) : (UInt64.ofNat n).toNat = n :=
  UInt64.toNat_ofNat_of_lt' room

theorem settleCount_ofNat {n : Nat} (room : n < 2 ^ 64) :
    o.settleCount n (.ofNat n) = .ok (.ofNat n) :=
  settle_of_eq (congrArg Nat.cast (toNat_ofNat room)) _

theorem addCounts_ofNat {m n : Nat} (room : m + n < 2 ^ 64) :
    o.addCounts (.ofNat m) (.ofNat n) = .ok (.ofNat (m + n)) := by
  rw [addCounts, toNat_ofNat (by omega), toNat_ofNat (by omega), ← UInt64.ofNat_add,
    ← Int.natCast_add]
  exact settleCount_ofNat room

theorem subCounts_ofNat {m n : Nat} (room : m < 2 ^ 64) (le : n ≤ m) :
    o.subCounts (.ofNat m) (.ofNat n) = .ok (.ofNat (m - n)) := by
  rw [subCounts, toNat_ofNat room, toNat_ofNat (by omega), ← UInt64.ofNat_sub le,
    ← Int.natCast_sub le]
  exact settleCount_ofNat (by omega)

theorem mulCounts_ofNat {m n : Nat} (left : m < 2 ^ 64) (right : n < 2 ^ 64)
    (room : m * n < 2 ^ 64) : o.mulCounts (.ofNat m) (.ofNat n) = .ok (.ofNat (m * n)) := by
  rw [mulCounts, toNat_ofNat left, toNat_ofNat right, ← UInt64.ofNat_mul, ← Int.natCast_mul]
  exact settleCount_ofNat room

theorem settleOffset_ofInt {k : Int} (low : -2 ^ 63 ≤ k) (high : k < 2 ^ 63) :
    o.settleOffset k (.ofInt k) = .ok (.ofInt k) :=
  settle_of_eq (Int64.toInt_ofInt_of_le low high) _

theorem castCount_ofNat {n : Nat} (room : n < 2 ^ 63) :
    o.castCount (.ofNat n) = .ok (.ofInt n) := by
  rw [castCount, toNat_ofNat (by omega), UInt64.toInt64_ofNat', ← Int64.ofInt_eq_ofNat]
  exact settleOffset_ofInt (by omega) (by omega)

-- offsets are computed from addresses, and these are never negative
theorem addOffsets_ofInt {j k : Int} (left : 0 ≤ j) (right : 0 ≤ k) (room : j + k < 2 ^ 63) :
    o.addOffsets (.ofInt j) (.ofInt k) = .ok (.ofInt (j + k)) := by
  rw [addOffsets, Int64.toInt_ofInt_of_le (by omega) (by omega),
    Int64.toInt_ofInt_of_le (by omega) (by omega), ← Int64.ofInt_add]
  exact settleOffset_ofInt (by omega) room

theorem subOffsets_ofInt {j k : Int} (nonneg : 0 ≤ k) (le : k ≤ j) (room : j < 2 ^ 63) :
    o.subOffsets (.ofInt j) (.ofInt k) = .ok (.ofInt (j - k)) := by
  rw [subOffsets, Int64.toInt_ofInt_of_le (by omega) room,
    Int64.toInt_ofInt_of_le (by omega) (by omega), ← Int64.ofInt_sub]
  exact settleOffset_ofInt (by omega) (by omega)

theorem mulOffsets_ofInt {j k : Int} (left : 0 ≤ j) (right : 0 ≤ k) (smallLeft : j < 2 ^ 63)
    (smallRight : k < 2 ^ 63) (room : j * k < 2 ^ 63) :
    o.mulOffsets (.ofInt j) (.ofInt k) = .ok (.ofInt (j * k)) := by
  have nonneg : 0 ≤ j * k := Int.mul_nonneg left right
  rw [mulOffsets, Int64.toInt_ofInt_of_le (by omega) smallLeft,
    Int64.toInt_ofInt_of_le (by omega) smallRight, ← Int64.ofInt_mul]
  exact settleOffset_ofInt (by omega) room

theorem negOffset_ofInt {k : Int} (nonneg : 0 ≤ k) (room : k < 2 ^ 63) :
    o.negOffset (.ofInt k) = .ok (.ofInt (-k)) := by
  rw [negOffset, Int64.toInt_ofInt_of_le (by omega) room, ← Int64.ofInt_neg]
  exact settleOffset_ofInt (by omega) (by omega)

end Room

end Overflow

end EncoderVectors
