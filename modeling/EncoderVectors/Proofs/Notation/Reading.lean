import EncoderVectors.Instance.Render
import EncoderVectors.Proofs.Notation.Operand

/-!
# Readers of calls and of assembly lines

What a text of an instruction says is a `Reading`: operand values, the two sets of a fence, the label
aimed at, the ordering and the rounding mode. A reader knows the `Pattern` of the instruction, which
tells what to look for and where. It does not tell the ordering, the rounding mode or whether the mode
is spelled: those are read off the text. A reader of calls also knows how calls are spelled; a reader
of assembly lines knows the pattern alone.

No reader is given the name of the instruction.
-/

set_option autoImplicit false

namespace EncoderVectors

/-- What a shape tells a reader of the texts of an instruction. -/
inductive Pattern where
  /-- Operands for the slots, then a label and a rounding mode where there are any. -/
  | slots (slots : List Slot) (labelled rounded : Bool)
  /-- The registers of an atomic memory operation, and an ordering. -/
  | atomic (kind : AtomicKind)
  /-- The two sets of a fence. -/
  | fence
  deriving DecidableEq, Repr

/-- The pattern of a shape. -/
def Shape.pattern (s : Shape) : Pattern :=
  match s.layout with
  | .slots slots => .slots slots s.transfer.isSome s.rounding.isSome
  | .atomic kind _ => .atomic kind
  | .fence => .fence

/-- What a text of an instruction says. -/
structure Reading where
  /-- The operand values in the order of the layout. -/
  operands : List Operand := []
  /-- The predecessor and the successor set of a fence. -/
  barriers : Option (Barrier × Barrier) := none
  /-- The label aimed at. -/
  target : Option Target := none
  /-- The ordering of an atomic memory operation. -/
  ordering : Option AtomicOrdering := none
  /-- The rounding mode. -/
  rounding : Option RoundingMode := none
  deriving DecidableEq, Repr

/-- What the form of an instance for a target has to say. -/
def Instance.reading (i : Instance) (target : Option Target) : Reading where
  operands := i.operands
  barriers := i.barriers?
  target := target
  ordering := i.entry.shape.ordering
  rounding := i.entry.shape.rounding.map Rounding.mode

/-! ## Parts -/

/-- Reads a part if there is to be one. -/
def Text.readIf {α : Type} (expected : Bool) (reader : List Char → Option (α × List Char))
    (cs : List Char) : Option (Option α × List Char) :=
  if expected then (reader cs).map fun (a, rest) => (some a, rest) else some (none, cs)

/-- The set of a four-bit field. -/
def Barrier.ofBits? (n : Nat) : Option Barrier :=
  if n < 16 then some ⟨n.testBit 3, n.testBit 2, n.testBit 1, n.testBit 0⟩ else none

/-- The set of those letters, if they stand in order and only once each. -/
def Barrier.ofLetters? (letters : List Char) : Option Barrier :=
  let b : Barrier := ⟨'i' ∈ letters, 'o' ∈ letters, 'r' ∈ letters, 'w' ∈ letters⟩
  if b.name.toList = letters then some b else none

/-- Reads a set with a comma in front: its bits in a call, its letters in assembly. -/
def Barrier.readListed (d : Dialect) (cs : List Char) : Option (Barrier × List Char) := do
  let cs ← Text.expect ", " cs
  match d with
  | .call => do
      let (n, rest) ← Text.readLiteral cs
      let b ← ofBits? n
      return (b, rest)
  | .assembly => do
      let b ← ofLetters? (cs.takeWhile Char.isLower)
      return (b, cs.dropWhile Char.isLower)

/-- Reads the label at the end of a call. -/
def Target.readCall (callPrefix : String) (cs : List Char) : Option (Target × List Char) :=
  (Text.readWhole all (fun t => ", " ++ t.callToken callPrefix) cs).map fun t => (t, [])

/-- Reads a label in an assembly line. -/
def Target.readAssembly (cs : List Char) : Option (Target × List Char) := do
  Text.readFirst all assemblyToken (← Text.expect ", " cs)

/-- Reads the rounding mode at the end of an assembly line; without one the mode is nearest-even. -/
def RoundingMode.readAssembly (cs : List Char) : Option (RoundingMode × List Char) :=
  if cs.isEmpty then some (.rne, [])
  else (Text.readWhole all (fun m => ", " ++ m.name) cs).map fun m => (m, [])

/-- The operands in the order of a call, from those of an assembly line: the plain registers and the
one in brackets. -/
def AtomicKind.callOrder : AtomicKind → List Operand → Operand → List Operand
  | .memoryOperation, [rd, value], address => [rd, address, value]
  | _, plain, address => plain ++ [address]

/-- Reads the registers of an atomic memory operation in an assembly line; the last is in brackets. -/
def AtomicKind.readAssembly (kind : AtomicKind) (cs : List Char) :
    Option (List Operand × List Char) := do
  let (plain, cs) ← Operand.readEach .assembly (List.replicate (kind.registers - 1) .general) cs
  let (address, cs) ← Operand.read .general .assembly (← Text.expect ", (" cs)
  let rest ← Text.expect ")" cs
  return (kind.callOrder plain address, rest)

/-! ## Whole texts -/

namespace Pattern

/-- Reads the arguments of a call, each with a comma in front. The enumerated argument is taken off
the end first: its scope may be any text. -/
def readCallItems (p : Pattern) (style : CallStyle) (cs : List Char) : Option Reading :=
  match p with
  | .slots kinds labelled rounded => do
      let (mode, cs) ← Text.readIf rounded
        (Text.readLast RoundingMode.all fun m => ", " ++ style.enumScope ++ m.name) cs
      let (operands, cs) ← Operand.readEach .call kinds cs
      let (target, cs) ← Text.readIf labelled (Target.readCall style.callPrefix) cs
      if cs.isEmpty then some { operands := operands, target := target, rounding := mode } else none
  | .atomic kind => do
      let (ordering, cs) ←
        Text.readLast AtomicOrdering.all (fun o => ", " ++ style.enumScope ++ o.suffix) cs
      let (operands, cs) ← Operand.readEach .call (List.replicate kind.registers .general) cs
      if cs.isEmpty then some { operands := operands, ordering := some ordering } else none
  | .fence => do
      let (predecessor, cs) ← Barrier.readListed .call cs
      let (successor, cs) ← Barrier.readListed .call cs
      if cs.isEmpty then some { barriers := some (predecessor, successor) } else none

/-- Reads an encoder call: the known text in front of every call, a name up to the opening bracket,
the arguments, and the closing bracket with the semicolon. -/
def readCall (p : Pattern) (style : CallStyle) (text : String) : Option Reading := do
  let named ← Text.expect style.callPrefix text.toList
  let cs ← Text.expect "(" (named.dropWhile (· ≠ '('))
  let arguments ← Text.expectLast ");" cs
  p.readCallItems style (Text.commaLed arguments)

/-- Reads the name and the operands of an assembly line, each operand with a comma in front. The
ordering of an atomic memory operation is the last part of its name. -/
def readAssemblyItems (p : Pattern) (name cs : List Char) : Option Reading :=
  match p with
  | .slots kinds labelled rounded => do
      let (operands, cs) ← Operand.readEach .assembly kinds cs
      let (target, cs) ← Text.readIf labelled Target.readAssembly cs
      let (mode, cs) ← Text.readIf rounded RoundingMode.readAssembly cs
      if cs.isEmpty then some { operands := operands, target := target, rounding := mode } else none
  | .atomic kind => do
      let (ordering, _) ← Text.readLast AtomicOrdering.all (fun o => "." ++ o.suffix) name
      let (operands, cs) ← kind.readAssembly cs
      if cs.isEmpty then some { operands := operands, ordering := some ordering } else none
  | .fence => do
      let (predecessor, cs) ← Barrier.readListed .assembly cs
      let (successor, cs) ← Barrier.readListed .assembly cs
      if cs.isEmpty then some { barriers := some (predecessor, successor) } else none

/-- Reads an assembly line: a name up to the tab, and the operands after it. -/
def readAssembly (p : Pattern) (text : String) : Option Reading :=
  p.readAssemblyItems (text.toList.takeWhile (· ≠ '\t'))
    (Text.commaLed ((text.toList.dropWhile (· ≠ '\t')).drop 1))

end Pattern

end EncoderVectors
