import EncoderVectors.Random.WordStream

/-!
# The ChaCha keystream

The word stream behind a seed. A 64-bit seed is expanded to a key of eight words; the stream is the
ChaCha keystream of that key with eight rounds, a zero nonce and a 64-bit block counter from zero.
The sixteen words of a state are held as four rows of four, so that one step mixes all columns.
-/

set_option autoImplicit false

namespace EncoderVectors.ChaCha

/-- A word turned left by some bits. -/
def rotateLeft (w n : UInt32) : UInt32 :=
  (w <<< n) ||| (w >>> (32 - n))

/-- A word turned right by some bits. -/
def rotateRight (w n : UInt32) : UInt32 :=
  (w >>> n) ||| (w <<< (32 - n))

/-- Four words side by side. -/
structure Quad where
  /-- The first word. -/
  a : UInt32
  /-- The second word. -/
  b : UInt32
  /-- The third word. -/
  c : UInt32
  /-- The fourth word. -/
  d : UInt32
  deriving DecidableEq, Repr

namespace Quad

/-- Word by word sum. -/
def add (x y : Quad) : Quad :=
  ⟨x.a + y.a, x.b + y.b, x.c + y.c, x.d + y.d⟩

/-- Word by word exclusive or, each result turned left by `n` bits. -/
def xorRotate (x y : Quad) (n : UInt32) : Quad :=
  ⟨rotateLeft (x.a ^^^ y.a) n, rotateLeft (x.b ^^^ y.b) n, rotateLeft (x.c ^^^ y.c) n,
    rotateLeft (x.d ^^^ y.d) n⟩

/-- The words moved one place to the left, the first one going last. -/
def shift (x : Quad) : Quad :=
  ⟨x.b, x.c, x.d, x.a⟩

/-- The words in order. -/
def toList (x : Quad) : List UInt32 :=
  [x.a, x.b, x.c, x.d]

end Quad

/-- The sixteen words of a state, as four rows. -/
structure Block where
  /-- Constants at the start of a block. -/
  first : Quad
  /-- The first half of the key. -/
  second : Quad
  /-- The second half of the key. -/
  third : Quad
  /-- Counter and nonce. -/
  fourth : Quad
  deriving DecidableEq, Repr

namespace Block

/-- Word by word sum. -/
def add (x y : Block) : Block :=
  ⟨x.first.add y.first, x.second.add y.second, x.third.add y.third, x.fourth.add y.fourth⟩

/-- One quarter round on each column. -/
def mix (x : Block) : Block :=
  let a := x.first.add x.second
  let d := x.fourth.xorRotate a 16
  let c := x.third.add d
  let b := x.second.xorRotate c 12
  let a := a.add b
  let d := d.xorRotate a 8
  let c := c.add d
  let b := b.xorRotate c 7
  ⟨a, b, c, d⟩

/-- Brings the diagonals into the columns. -/
def skew (x : Block) : Block :=
  ⟨x.first, x.second.shift, x.third.shift.shift, x.fourth.shift.shift.shift⟩

/-- Brings the columns back into the diagonals. -/
def unskew (x : Block) : Block :=
  ⟨x.first, x.second.shift.shift.shift, x.third.shift.shift, x.fourth.shift⟩

/-- A round on the columns and a round on the diagonals. -/
def doubleRound (x : Block) : Block :=
  x.mix.skew.mix.unskew

/-- The words in order. -/
def toList (x : Block) : List UInt32 :=
  x.first.toList ++ x.second.toList ++ x.third.toList ++ x.fourth.toList

end Block

/-- The four words every block starts from. -/
def constants : Quad :=
  ⟨0x61707865, 0x3320646e, 0x79622d32, 0x6b206574⟩

/-- The keystream block of a number, for a key of two quads: four double rounds, and the state they
started from added on. -/
def keystreamBlock (low high : Quad) (number : UInt64) : Block :=
  let start : Block := ⟨constants, low, high, ⟨number.toUInt32, (number >>> 32).toUInt32, 0, 0⟩⟩
  start.doubleRound.doubleRound.doubleRound.doubleRound.add start

/-- A place in a keystream. -/
structure Keystream where
  /-- The first half of the key. -/
  low : Quad
  /-- The second half of the key. -/
  high : Quad
  /-- The number of the next block. -/
  number : UInt64
  /-- The words of the present block that are not taken yet. -/
  pending : List UInt32
  deriving DecidableEq, Repr

namespace Keystream

/-- The next word of the keystream. -/
def next (k : Keystream) : UInt32 × Keystream :=
  match k.pending with
  | w :: rest => (w, { k with pending := rest })
  | [] =>
      let block := keystreamBlock k.low k.high k.number
      (block.first.a, { k with number := k.number + 1, pending := block.toList.tail })

end Keystream

instance : WordStream Keystream where
  next := Keystream.next

/-- One step of the seed expansion: a linear congruence on 64 bits. -/
def expandStep (state : UInt64) : UInt64 :=
  state * 6364136223846793005 + 11634580027462260723

/-- The key word read off a state of the expansion. -/
def expandWord (state : UInt64) : UInt32 :=
  rotateRight ((((state >>> 18) ^^^ state) >>> 27).toUInt32) (state >>> 59).toUInt32

/-- The next four key words and the state after them. -/
def expandQuad (state : UInt64) : Quad × UInt64 :=
  let s₁ := expandStep state
  let s₂ := expandStep s₁
  let s₃ := expandStep s₂
  let s₄ := expandStep s₃
  (⟨expandWord s₁, expandWord s₂, expandWord s₃, expandWord s₄⟩, s₄)

/-- The keystream of a seed, from its start. -/
def Keystream.ofSeed (seed : UInt64) : Keystream :=
  let (low, state) := expandQuad seed
  let (high, _) := expandQuad state
  ⟨low, high, 0, []⟩

end EncoderVectors.ChaCha
