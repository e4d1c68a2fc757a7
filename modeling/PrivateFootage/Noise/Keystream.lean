/-!
# A seeded stream of random words

A 64-bit seed is stretched to a 256-bit key, and the key is run through the twelve-round ChaCha
block function with a 64-bit block counter and stream number zero. The sixteen words of each block
are taken in pairs, the low half first.
-/

namespace PrivateFootage.Noise

/-- Turn a word left by a number of bits. -/
def rotateLeft (word : UInt32) (bits : UInt32) : UInt32 :=
  (word <<< bits) ||| (word >>> (32 - bits))

/-- Turn a word right by a number of bits. -/
def rotateRight (word : UInt32) (bits : UInt32) : UInt32 :=
  if bits = 0 then word else (word >>> bits) ||| (word <<< (32 - bits))

/-- One step of the seed stretching generator. -/
def stretchStep (state : UInt64) : UInt64 :=
  state * 6364136223846793005 + 11634580027462260723

/-- The key word of a stretching state. -/
def stretchWord (state : UInt64) : UInt32 :=
  rotateRight (((state >>> 18) ^^^ state) >>> 27).toUInt32 (state >>> 59).toUInt32

/-- A number of key words from a stretching state. -/
def stretch : Nat → UInt64 → List UInt32
  | 0, _ => []
  | count + 1, state =>
    let next := stretchStep state
    stretchWord next :: stretch count next

/-- Four words of the block, one column or diagonal. -/
structure Quarter where
  a : UInt32
  b : UInt32
  c : UInt32
  d : UInt32
deriving DecidableEq, Repr

/-- Mix four words. -/
def Quarter.mix (quarter : Quarter) : Quarter :=
  let a := quarter.a + quarter.b
  let d := rotateLeft (quarter.d ^^^ a) 16
  let c := quarter.c + d
  let b := rotateLeft (quarter.b ^^^ c) 12
  let a := a + b
  let d := rotateLeft (d ^^^ a) 8
  let c := c + d
  let b := rotateLeft (b ^^^ c) 7
  ⟨a, b, c, d⟩

/-- The sixteen words of a block, as four columns. -/
structure Block where
  first : Quarter
  second : Quarter
  third : Quarter
  fourth : Quarter
deriving DecidableEq, Repr

/-- Mix the columns, then the diagonals. -/
def Block.doubleRound (block : Block) : Block :=
  let p := block.first.mix
  let q := block.second.mix
  let r := block.third.mix
  let s := block.fourth.mix
  let v := Quarter.mix ⟨p.a, q.b, r.c, s.d⟩
  let w := Quarter.mix ⟨q.a, r.b, s.c, p.d⟩
  let x := Quarter.mix ⟨r.a, s.b, p.c, q.d⟩
  let y := Quarter.mix ⟨s.a, p.b, q.c, r.d⟩
  ⟨⟨v.a, y.b, x.c, w.d⟩, ⟨w.a, v.b, y.c, x.d⟩, ⟨x.a, w.b, v.c, y.d⟩, ⟨y.a, x.b, w.c, v.d⟩⟩

/-- Add two columns word by word. -/
def Quarter.add (left right : Quarter) : Quarter :=
  ⟨left.a + right.a, left.b + right.b, left.c + right.c, left.d + right.d⟩

/-- Add two blocks word by word. -/
def Block.add (left right : Block) : Block :=
  ⟨left.first.add right.first, left.second.add right.second, left.third.add right.third,
    left.fourth.add right.fourth⟩

/-- Six double rounds and the addition of the block they start from. -/
def Block.scramble (block : Block) : Block :=
  (Nat.repeat Block.doubleRound 6 block).add block

/-- The words of a block in order, row by row. -/
def Block.words (block : Block) : List UInt32 :=
  let ⟨p, q, r, s⟩ := block
  [p.a, q.a, r.a, s.a, p.b, q.b, r.b, s.b, p.c, q.c, r.c, s.c, p.d, q.d, r.d, s.d]

/-- The block to scramble for a key and a counter. -/
def Block.keyed (key : List UInt32) (counter : UInt64) : Block :=
  let word (position : Nat) : UInt32 := key.getD position 0
  ⟨⟨0x61707865, word 0, word 4, counter.toUInt32⟩,
    ⟨0x3320646e, word 1, word 5, (counter >>> 32).toUInt32⟩,
    ⟨0x79622d32, word 2, word 6, 0⟩,
    ⟨0x6b206574, word 3, word 7, 0⟩⟩

/-- Join words in pairs, the first of each pair as the low half. -/
def pairWords : List UInt32 → List UInt64
  | low :: high :: rest => (low.toUInt64 ||| (high.toUInt64 <<< 32)) :: pairWords rest
  | _ => []

/-- A stream of 64-bit words: the key, the counter of the next block, and the words of the current
block that have not been taken. -/
structure Keystream where
  key : List UInt32
  counter : UInt64
  pending : List UInt64
deriving DecidableEq, Repr

namespace Keystream

/-- The stream of a seed. -/
def ofSeed (seed : UInt64) : Keystream :=
  ⟨stretch 8 seed, 0, []⟩

/-- The words of the next block. -/
def block (stream : Keystream) : List UInt64 :=
  pairWords (Block.keyed stream.key stream.counter).scramble.words

/-- Take the next word. -/
def next (stream : Keystream) : UInt64 × Keystream :=
  match stream.pending with
  | word :: rest => (word, { stream with pending := rest })
  | [] =>
    match stream.block with
    | word :: rest => (word, { stream with counter := stream.counter + 1, pending := rest })
    | [] => (0, stream)

end Keystream

end PrivateFootage.Noise
