import EncoderVectors.Emission.Basic
import EncoderVectors.Word.Fields

/-!
# Fixtures

A fixture pairs every emitted instruction with the word the reference assembler made of it. There is
one word for each instruction, and the forms of one instance agree outside their target fields;
otherwise there is no fixture.
-/

set_option autoImplicit false

namespace EncoderVectors

/-- An instruction and its word. -/
structure TestVector where
  /-- The family of the instruction. -/
  family : Family
  /-- The encoder call. -/
  call : String
  /-- The assembly line. -/
  assembly : String
  /-- The word both must encode to. -/
  word : UInt32
  /-- The target of a control transfer. -/
  target : Option Target
  deriving DecidableEq, Repr

/-- A checked set of vectors. -/
structure Fixture where
  /-- The seed that reproduces the run. -/
  seed : UInt64
  /-- The vectors in order of emission. -/
  vectors : List TestVector
  deriving DecidableEq, Repr

namespace Fixture

/-- The words in order. -/
def words (f : Fixture) : List UInt32 :=
  f.vectors.map TestVector.word

/-- Why words do not make a fixture. -/
inductive Fault where
  /-- There are more or fewer words than instructions. -/
  | wordCount (expected actual : Nat)
  /-- The forms of one instance differ outside their target fields. -/
  | forms (mnemonic : String) (words : List UInt32)
  deriving DecidableEq, Repr

/-- There are as many words as expected. -/
def checkCount (expected : Nat) (words : List UInt32) : Except Fault Unit :=
  if words.length = expected then .ok () else .error (.wordCount expected words.length)

/-- All words agree outside their target fields with the first one. -/
def agree : List UInt32 → Bool
  | [] => true
  | w :: rest => rest.all fun v => Word.targetFree v = Word.targetFree w

/-- The forms of each block agree with one another, the words being those of the blocks in order. A
block of one form has nothing to agree with, and one that the words do not reach is passed over. -/
def checkBlocks : List Block → List UInt32 → Except Fault Unit
  | [], _ => .ok ()
  | block :: rest, words =>
      let own := words.take block.length
      if own.length = block.length && !agree own then
        .error (.forms ((block.head?.map Instruction.mnemonic).getD "") own)
      else checkBlocks rest (words.drop block.length)

/-- The forms of each instance of the emission agree with one another. -/
def checkForms (e : Emission) (words : List UInt32) : Except Fault Unit :=
  checkBlocks e.blocks words

/-- An instruction with its word. -/
def vector (i : Instruction) (w : UInt32) : TestVector :=
  ⟨i.family, i.call, i.assembly, w, i.target⟩

/-- The fixture of an emission and its words. -/
def pair (e : Emission) (words : List UInt32) : Except Fault Fixture := do
  checkCount e.size words
  checkForms e words
  return ⟨e.seed, List.zipWith vector e.instructions words⟩

end Fixture

end EncoderVectors
