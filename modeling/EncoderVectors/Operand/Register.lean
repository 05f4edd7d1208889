import EncoderVectors.Dialect
import EncoderVectors.Text.Numeral

/-!
# Registers

A register operand belongs to a class that fixes the indices it may take and the aliases it is
written with. A `Register` carries the proof that its index is one its class admits.
-/

set_option autoImplicit false

namespace EncoderVectors

/-- What a register slot admits. -/
inductive RegisterClass where
  /-- An integer register other than `x0`. -/
  | general
  /-- An integer register, with index 0 written as the zero alias. -/
  | zeroAlias
  /-- An integer register, with index 2 written as the stack pointer. -/
  | stackAlias
  /-- A floating-point register. -/
  | float
  deriving DecidableEq, Repr

namespace RegisterClass

/-- The least index of the class. -/
def least : RegisterClass → Nat
  | .general => 1
  | .zeroAlias | .stackAlias | .float => 0

/-- The number of registers of the class; the greatest index is always 31. -/
def size (c : RegisterClass) : Nat :=
  32 - c.least

end RegisterClass

/-- A register of some class. -/
structure Register where
  /-- The class the register is drawn from. -/
  cls : RegisterClass
  /-- The architectural register number. -/
  index : Nat
  /-- The class admits the index from below. -/
  least_le : cls.least ≤ index
  /-- There are 32 registers in a file. -/
  index_lt : index < 32
  deriving Repr

namespace Register

/-- A register is known by its class and index. -/
theorem eq_of_index_eq {a b : Register} (cls : a.cls = b.cls) (index : a.index = b.index) :
    a = b := by
  cases a
  cases b
  cases cls
  cases index
  rfl

instance : DecidableEq Register := fun a b =>
  if h : a.cls = b.cls ∧ a.index = b.index then isTrue (eq_of_index_eq h.1 h.2)
  else isFalse fun same => h ⟨congrArg cls same, congrArg index same⟩

/-- The register of that class and index, if the class admits it. -/
def ofIndex? (cls : RegisterClass) (index : Nat) : Option Register :=
  if h : cls.least ≤ index ∧ index < 32 then some ⟨cls, index, h.1, h.2⟩ else none

/-- The register counted from the least one of its class. -/
def nth (cls : RegisterClass) (i : Fin cls.size) : Register where
  cls := cls
  index := cls.least + i.val
  least_le := Nat.le_add_right _ _
  index_lt := by
    have := i.isLt
    simp only [RegisterClass.size] at this
    omega

/-- The register after this one, going round from the last of the file to the first. Only float
registers are paired this way. -/
def successorIndex (r : Register) : Nat :=
  (r.index + 1) % 32

/-- The text of a register. The zero alias is `zr` in a call and `zero` in assembly. -/
def render (r : Register) (d : Dialect) : String :=
  match r.cls, r.index, d with
  | .zeroAlias, 0, .call => "zr"
  | .zeroAlias, 0, .assembly => "zero"
  | .stackAlias, 2, _ => "sp"
  | .float, n, _ => "f" ++ Text.decimal n
  | _, n, _ => "x" ++ Text.decimal n

end Register

end EncoderVectors
