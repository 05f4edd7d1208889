/-!
# Mnemonics

An instruction is known by one name: lowercase parts joined by underscores, such as `fcvt_w_s`. The
name of the encoder call and the name the assembler takes are both read off that one name. A
`Mnemonic` carries the proof that its name breaks none of the rules.
-/

set_option autoImplicit false

namespace EncoderVectors

namespace Mnemonic

/-- The rules a name can break, in the order they are looked at. -/
inductive Fault where
  /-- There is no name. -/
  | empty
  /-- The first character is no lowercase letter. -/
  | firstLetter
  /-- A character is neither a lowercase letter, nor a digit, nor an underscore. -/
  | alphabet
  /-- Nothing stands between two underscores, or after the last one. -/
  | emptyPart
  deriving DecidableEq, Repr

/-- The wording of a broken rule. -/
def Fault.message : Fault → String
  | .empty => "empty name"
  | .firstLetter => "must start with a lowercase letter"
  | .alphabet => "only lowercase letters, digits and '_' are allowed"
  | .emptyPart => "empty '_'-separated part"

/-- A character that may stand in a part of a name. -/
def isPartChar (c : Char) : Bool :=
  c.isLower || c.isDigit

/-- The first rule that the name breaks. -/
def fault? (name : String) : Option Fault :=
  match name.toList with
  | [] => some .empty
  | c :: rest =>
      if !c.isLower then some .firstLetter
      else if !(c :: rest).all (fun d => isPartChar d || d == '_') then some .alphabet
      else if ((c :: rest).splitOn '_').any List.isEmpty then some .emptyPart
      else none

end Mnemonic

/-- The name of an instruction. -/
structure Mnemonic where
  /-- The name, its parts joined by underscores. -/
  name : String
  /-- The name breaks no rule. -/
  sound : Mnemonic.fault? name = none
  deriving DecidableEq, Repr

namespace Mnemonic

/-- The mnemonic of that name, or the first rule that the name breaks. -/
def ofName (name : String) : Except Fault Mnemonic :=
  match h : fault? name with
  | none => .ok ⟨name, h⟩
  | some fault => .error fault

/-- The name with one more part. -/
def extended (m : Mnemonic) (part : String) : String :=
  m.name ++ "_" ++ part

/-- Names that the host language of the encoder reserves, each with the call used instead. -/
def reserved : List (String × String) :=
  [("and", "andr"), ("or", "orr"), ("not", "notr"), ("xor", "xorr")]

/-- The name of the encoder call. -/
def callName (m : Mnemonic) : String :=
  (reserved.lookup m.name).getD m.name

/-- The name the assembler takes: parts joined by dots. -/
def assemblyName (m : Mnemonic) : String :=
  String.ofList (m.name.toList.map fun c => if c = '_' then '.' else c)

end Mnemonic

end EncoderVectors
