import EncoderVectors.Operand.Basic
import EncoderVectors.Proofs.Text.Numeral
import EncoderVectors.Proofs.Text.Token

/-!
# Reading operands back

For each slot and each dialect a reader of the operand that fills the slot. It knows of the operand
nothing but its slot. The aliases stand for the registers they name: `zr` and `zero` for `x0`, `sp`
for `x2`. A constant is read as an integer literal, and the literal of an upper immediate in a call
counts units of 4096.

Main results: `Operand.read_render` for one operand, `Operand.readEach_listed` for a list of them.
-/

set_option autoImplicit false

namespace EncoderVectors

/-! ## Registers -/

/-- Reads the name of an integer register and yields its index. -/
def Register.readInteger (d : Dialect) (cs : List Char) : Option (Nat × List Char) :=
  match d, cs with
  | .call, 'z' :: 'r' :: rest => some (0, rest)
  | .assembly, 'z' :: 'e' :: 'r' :: 'o' :: rest => some (0, rest)
  | _, 's' :: 'p' :: rest => some (2, rest)
  | _, 'x' :: rest => Text.readNumeral 10 rest
  | _, _ => none

/-- Reads the name of a floating-point register and yields its index. -/
def Register.readFloat : List Char → Option (Nat × List Char)
  | 'f' :: rest => Text.readNumeral 10 rest
  | _ => none

/-- Reads a register of a class. -/
def Register.read (cls : RegisterClass) (d : Dialect) (cs : List Char) :
    Option (Register × List Char) := do
  let (index, rest) ← if cls = .float then readFloat cs else readInteger d cs
  let r ← ofIndex? cls index
  return (r, rest)

theorem Register.ofIndex?_index (r : Register) : ofIndex? r.cls r.index = some r := by
  simp [ofIndex?, r.least_le, r.index_lt]

theorem Register.readInteger_numbered (d : Dialect) (n : Nat) {rest : List Char}
    (h : Text.Closes rest) :
    readInteger d (("x" ++ Text.decimal n).toList ++ rest) = some (n, rest) := by
  have text : ("x" ++ Text.decimal n).toList ++ rest = 'x' :: ((Text.decimal n).toList ++ rest) := by
    simp
  rw [text, ← Text.readNumeral_decimal n h]
  cases d <;> rfl

theorem Register.readFloat_numbered (n : Nat) {rest : List Char} (h : Text.Closes rest) :
    readFloat (("f" ++ Text.decimal n).toList ++ rest) = some (n, rest) := by
  have text : ("f" ++ Text.decimal n).toList ++ rest = 'f' :: ((Text.decimal n).toList ++ rest) := by
    simp
  rw [text, ← Text.readNumeral_decimal n h]
  rfl

theorem Register.readInteger_stack (d : Dialect) (rest : List Char) :
    readInteger d ("sp".toList ++ rest) = some (2, rest) := by
  cases d <;> rfl

/-- An integer register is read back as its index, whether by number or by alias. -/
theorem Register.readInteger_render (r : Register) (d : Dialect) (integer : r.cls ≠ .float)
    {rest : List Char} (h : Text.Closes rest) :
    readInteger d ((r.render d).toList ++ rest) = some (r.index, rest) := by
  unfold render
  split
  · next zero => rw [zero]; rfl
  · next zero => rw [zero]; rfl
  · next stack => rw [stack]; exact readInteger_stack _ rest
  · next float => exact absurd float integer
  · exact readInteger_numbered _ _ h

/-- A register is read back from its name. -/
theorem Register.read_render (r : Register) (d : Dialect) {rest : List Char}
    (h : Text.Closes rest) : read r.cls d ((r.render d).toList ++ rest) = some (r, rest) := by
  unfold read
  by_cases float : r.cls = .float
  · have name : r.render d = "f" ++ Text.decimal r.index := by
      unfold render
      rw [float]
    rw [if_pos float, name, readFloat_numbered r.index h]
    simp [ofIndex?_index r]
  · rw [if_neg float, readInteger_render r d float h]
    simp [ofIndex?_index r]

/-! ## Addresses -/

/-- Reads an address. -/
def Address.read (d : Dialect) (cs : List Char) : Option (Address × List Char) :=
  match d with
  | .call => do
      let (base, cs) ← Register.readInteger .call (← Text.expect "Address(" cs)
      let (offset, cs) ← Text.readSigned (← Text.expect ", " cs)
      let rest ← Text.expect ")" cs
      let a ← ofParts? base offset
      return (a, rest)
  | .assembly => do
      let (offset, cs) ← Text.readSigned cs
      let (base, cs) ← Register.readInteger .assembly (← Text.expect "(" cs)
      let rest ← Text.expect ")" cs
      let a ← ofParts? base offset
      return (a, rest)

theorem Address.ofParts?_parts (a : Address) : ofParts? a.base a.offset = some a := by
  simp [ofParts?, a.base_pos, a.base_lt, a.offset_ge, a.offset_lt]

/-- An address is read back from its text, whatever comes after its closing bracket. -/
theorem Address.read_render (a : Address) (d : Dialect) (rest : List Char) :
    read d ((a.render d).toList ++ rest) = some (a, rest) := by
  have bracket : Text.Closes (")".toList ++ rest) := Text.closes_cons rest (by decide)
  cases d with
  | call =>
      have text : (a.render .call).toList ++ rest =
          "Address(".toList ++ (("x" ++ Text.decimal a.base).toList ++
            (", ".toList ++ ((Text.signedDecimal a.offset).toList ++ (")".toList ++ rest)))) := by
        simp [render]
      have comma : Text.Closes
          (", ".toList ++ ((Text.signedDecimal a.offset).toList ++ (")".toList ++ rest))) :=
        Text.closes_cons _ (by decide)
      rw [text]
      simp only [read, Text.expect_append, Option.bind_eq_bind, Option.bind_some,
        Register.readInteger_numbered .call a.base comma,
        Text.readSigned_signedDecimal a.offset bracket, ofParts?_parts]
      rfl
  | assembly =>
      have text : (a.render .assembly).toList ++ rest =
          (Text.signedDecimal a.offset).toList ++
            ("(".toList ++ (("x" ++ Text.decimal a.base).toList ++ (")".toList ++ rest))) := by
        simp [render]
      have opening : Text.Closes
          ("(".toList ++ (("x" ++ Text.decimal a.base).toList ++ (")".toList ++ rest))) :=
        Text.closes_cons _ (by decide)
      rw [text]
      simp only [read, Text.expect_append, Option.bind_eq_bind, Option.bind_some,
        Text.readSigned_signedDecimal a.offset opening,
        Register.readInteger_numbered .assembly a.base bracket, ofParts?_parts]
      rfl

/-! ## Constants -/

/-- How much of a literal one unit of the constant stands for: a call holds an upper immediate as the
full word. -/
def ImmediateRole.unit : ImmediateRole → Dialect → Nat
  | .upper20, .call => 4096
  | _, _ => 1

theorem ImmediateRole.unit_pos (role : ImmediateRole) (d : Dialect) : 0 < role.unit d := by
  cases role <;> cases d <;> decide

/-- Reads a constant in a role: an integer literal that is a whole number of units. -/
def Immediate.read (role : ImmediateRole) (d : Dialect) (cs : List Char) :
    Option (Immediate × List Char) := do
  let (n, rest) ← Text.readLiteral cs
  let i ← if n % role.unit d = 0 then ofValue? role (n / role.unit d) else none
  return (i, rest)

/-- The literal of a constant denotes its value in units. -/
theorem Immediate.readLiteral_render (i : Immediate) (d : Dialect) {rest : List Char}
    (h : Text.Closes rest) :
    Text.readLiteral ((i.render d).toList ++ rest) = some (i.value * i.role.unit d, rest) := by
  obtain ⟨role, value, bound⟩ := i
  -- each role has a spelling of its own in each dialect
  cases role <;> cases d <;> simp only [render, ImmediateRole.unit, Nat.mul_one]
  · exact Text.readLiteral_unsigned value rest
  · exact Text.readLiteral_hex value h
  · exact Text.readLiteral_unsigned value rest
  · exact Text.readLiteral_hex value h
  · exact Text.readLiteral_hex_shifted value h
  · exact Text.readLiteral_hex value h
  · exact Text.readLiteral_decimal value h
  · exact Text.readLiteral_hex value h
  · exact Text.readLiteral_decimal value h
  · exact Text.readLiteral_decimal value h

/-- A constant is read back from its literal. -/
theorem Immediate.read_render (i : Immediate) (d : Dialect) {rest : List Char}
    (h : Text.Closes rest) : read i.role d ((i.render d).toList ++ rest) = some (i, rest) := by
  have value : ofValue? i.role i.value = some i := by simp [ofValue?, i.value_lt]
  simp [read, readLiteral_render i d h, Nat.mul_div_cancel _ (i.role.unit_pos d), value]

/-! ## Operands -/

/-- Reads an operand for a slot. -/
def Operand.read (slot : Slot) (d : Dialect) (cs : List Char) : Option (Operand × List Char) :=
  match slot with
  | .register cls => (Register.read cls d cs).map fun (r, rest) => (.register r, rest)
  | .address => (Address.read d cs).map fun (a, rest) => (.address a, rest)
  | .immediate role => (Immediate.read role d cs).map fun (i, rest) => (.immediate i, rest)

/-- An operand is read back for its slot from its text in either dialect. -/
theorem Operand.read_render (o : Operand) (d : Dialect) {rest : List Char}
    (h : Text.Closes rest) : read o.slot d ((o.render d).toList ++ rest) = some (o, rest) := by
  cases o with
  | register r => simp [read, slot, render, Register.read_render r d h]
  | address a => simp [read, slot, render, Address.read_render a d rest]
  | immediate i => simp [read, slot, render, Immediate.read_render i d h]

/-- Reads an operand for each slot, each with a comma in front. -/
def Operand.readEach (d : Dialect) : List Slot → List Char → Option (List Operand × List Char)
  | [], cs => some ([], cs)
  | slot :: slots, cs => do
      let (o, cs) ← read slot d (← Text.expect ", " cs)
      let (os, rest) ← readEach d slots cs
      return (o :: os, rest)

theorem Text.closes_listed_append (items : List String) {rest : List Char} (h : Closes rest) :
    Closes (listed items ++ rest) := by
  cases items with
  | nil => exact h
  | cons item items =>
      rw [listed_cons, List.append_assoc]
      exact closes_cons _ (by decide)

/-- Listed operands are read back for their slots, in order. -/
theorem Operand.readEach_listed (d : Dialect) (os : List Operand) {rest : List Char}
    (h : Text.Closes rest) :
    readEach d (os.map slot) (Text.listed (os.map fun o => o.render d) ++ rest) =
      some (os, rest) := by
  induction os with
  | nil => rfl
  | cons o os ih =>
      have more := Text.closes_listed_append (os.map fun o => o.render d) h
      simp only [List.map_cons, Text.listed_cons, List.append_assoc, readEach, Text.expect_append,
        Option.bind_eq_bind, Option.bind_some, read_render o d more, ih]
      rfl

theorem Operand.read_nil (slot : Slot) (d : Dialect) : read slot d [] = none := by
  cases slot with
  | register cls => cases cls <;> cases d <;> rfl
  | address => cases d <;> rfl
  | immediate role => cases d <;> rfl

/-- No operand is written as nothing. -/
theorem Operand.render_ne_empty (o : Operand) (d : Dialect) : o.render d ≠ "" := by
  intro empty
  -- an empty text could not be read back
  have reading := read_render o d Text.closes_nil
  rw [empty, String.toList_empty, List.append_nil, read_nil] at reading
  exact absurd reading (by simp)

end EncoderVectors
