/-!
# Atomic memory operations

The parts of an atomic instruction that its name and its operands do not say: the ordering it asks
for, the width of its access, and which registers it names.
-/

set_option autoImplicit false

namespace EncoderVectors

/-- The ordering bit set on an atomic memory operation. -/
inductive AtomicOrdering where
  /-- No later access may be seen before this one. -/
  | acquire
  /-- No earlier access may be seen after this one. -/
  | release
  deriving DecidableEq, Repr

namespace AtomicOrdering

/-- The orderings in catalog order. -/
def all : List AtomicOrdering := [.acquire, .release]

/-- The suffix of the assembler mnemonic, which the encoder call names as well. -/
def suffix : AtomicOrdering → String
  | .acquire => "aq"
  | .release => "rl"

end AtomicOrdering

/-- The width of the access of an atomic memory operation. -/
inductive AtomicWidth where
  /-- 32 bits. -/
  | word
  /-- 64 bits. -/
  | double
  deriving DecidableEq, Repr

namespace AtomicWidth

/-- The widths in catalog order. -/
def all : List AtomicWidth := [.word, .double]

/-- The part of the mnemonic that names the width. -/
def suffix : AtomicWidth → String
  | .word => "w"
  | .double => "d"

end AtomicWidth

/-- Which registers an atomic instruction names. -/
inductive AtomicKind where
  /-- A destination and an address. -/
  | loadReserved
  /-- A status destination, a value and an address. -/
  | storeConditional
  /-- A destination, an address and a value. -/
  | memoryOperation
  deriving DecidableEq, Repr

namespace AtomicKind

/-- The kind that the first part of a mnemonic stands for: `lr`, `sc`, or `amo` with more letters. -/
def ofRoot? (root : String) : Option AtomicKind :=
  match root.toList with
  | ['l', 'r'] => some .loadReserved
  | ['s', 'c'] => some .storeConditional
  | 'a' :: 'm' :: 'o' :: _ :: _ => some .memoryOperation
  | _ => none

/-- The number of registers the instruction names. -/
def registers : AtomicKind → Nat
  | .loadReserved => 2
  | .storeConditional | .memoryOperation => 3

/-- The operands of an assembly line from those of a call: the address register goes last, in
parentheses. A memory operation names its address second in a call. -/
def assemblyOrder (kind : AtomicKind) (registers : List String) : List String :=
  match kind, registers with
  | .loadReserved, [rd, address] => [rd, "(" ++ address ++ ")"]
  | .storeConditional, [rd, value, address] => [rd, value, "(" ++ address ++ ")"]
  | .memoryOperation, [rd, address, value] => [rd, value, "(" ++ address ++ ")"]
  | _, others => others

end AtomicKind

end EncoderVectors
