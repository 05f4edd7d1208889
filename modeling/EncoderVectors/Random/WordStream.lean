/-!
# Streams of words

Everything random is drawn from a stream of 32-bit words. What is drawn depends on the stream alone,
so every definition here works for any type that yields words one after another.
-/

set_option autoImplicit false

namespace EncoderVectors

/-- A state that yields 32-bit words without end. -/
class WordStream (σ : Type) where
  /-- The next word and the state after it. -/
  next : σ → UInt32 × σ

/-- Takes the next word of the stream. -/
def nextWord {σ : Type} [WordStream σ] : StateM σ UInt32 :=
  modifyGet WordStream.next

end EncoderVectors
