namespace DeadReckoning

/-!
# ChaCha — a stream of random words from a seed

The eight-round ChaCha cipher with a 64-bit block counter and an empty nonce. A block of sixteen
words of 32 bits gives eight words of 64 bits, the low half coming first.

* `ChaCha.ofSeed` — the stream that belongs to a seed
* `ChaCha.next` — the next word of the stream, and the stream behind it
-/

/-- The sixteen words that a block is worked out in. -/
abbrev Grid := Vector UInt32 16

namespace Grid

/-- A word with its bits moved round to the left. -/
def rotate (w : UInt32) (bits : UInt32) : UInt32 := (w <<< bits) ||| (w >>> (32 - bits))

/-- Adds one word to another and mixes the sum into a third, which is then rotated. -/
def mix (grid : Grid) (target source mixed : Fin 16) (bits : UInt32) : Grid :=
  let grid := grid.set target (grid[target] + grid[source])
  grid.set mixed (rotate (grid[mixed] ^^^ grid[target]) bits)

/-- Mixes four words with each other. -/
def quarterRound (grid : Grid) (a b c d : Fin 16) : Grid :=
  (((grid.mix a b d 16).mix c d b 12).mix a b d 8).mix c d b 7

/-- Mixes each column of the grid. -/
def mixColumns (grid : Grid) : Grid :=
  grid.quarterRound 0 4 8 12 |>.quarterRound 1 5 9 13 |>.quarterRound 2 6 10 14
    |>.quarterRound 3 7 11 15

/-- Mixes each diagonal of the grid. -/
def mixDiagonals (grid : Grid) : Grid :=
  grid.quarterRound 0 5 10 15 |>.quarterRound 1 6 11 12 |>.quarterRound 2 7 8 13
    |>.quarterRound 3 4 9 14

/-- Mixes the columns of the grid, then its diagonals. -/
def doubleRound (grid : Grid) : Grid := grid.mixColumns.mixDiagonals

end Grid

/-- A place in the stream of a key. -/
structure ChaCha where
  key : Vector UInt32 8
  /-- The number of the block that comes after the words at hand. -/
  block : UInt64
  /-- What is left of the current block. -/
  atHand : List UInt64

namespace ChaCha

/-- The grid that a block starts from: four constants, the key, the number of the block and an empty
nonce. -/
def initialGrid (key : Vector UInt32 8) (block : UInt64) : Grid :=
  #v[0x61707865, 0x3320646e, 0x79622d32, 0x6b206574,
    key[0], key[1], key[2], key[3], key[4], key[5], key[6], key[7],
    block.toUInt32, (block >>> 32).toUInt32, 0, 0]

/-- Eight rounds, and the sum of what comes of them with the grid that they started from. -/
def blockGrid (key : Vector UInt32 8) (block : UInt64) : Grid :=
  let start := initialGrid key block
  Vector.zipWith (· + ·) start start.doubleRound.doubleRound.doubleRound.doubleRound

/-- Two words as one. -/
def join (low high : UInt32) : UInt64 := low.toUInt64 ||| (high.toUInt64 <<< 32)

/-- The words of a block. -/
def blockWords (key : Vector UInt32 8) (block : UInt64) : Vector UInt64 8 :=
  let grid := blockGrid key block
  Vector.ofFn fun i : Fin 8 => join grid[2 * i.val] grid[2 * i.val + 1]

/-- The next word of the stream. -/
def next (stream : ChaCha) : UInt64 × ChaCha :=
  match stream.atHand with
  | word :: rest => (word, { stream with atHand := rest })
  | [] =>
    let words := blockWords stream.key stream.block
    (words[0], { stream with block := stream.block + 1, atHand := words.toList.tail })

/-- One step of the generator that stretches a seed. -/
def stretchStep (state : UInt64) : UInt64 := state * 6364136223846793005 + 11634580027462260723

/-- The word that a state of that generator shows. -/
def stretchWord (state : UInt64) : UInt32 :=
  let word := (((state >>> 18) ^^^ state) >>> 27).toUInt32
  let turn := (state >>> 59).toUInt32
  (word >>> turn) ||| (word <<< (32 - turn))

/-- The states of that generator after a seed. -/
def stretchStates (seed : UInt64) : Nat → UInt64
  | 0 => stretchStep seed
  | n + 1 => stretchStep (stretchStates seed n)

/-- The stream that belongs to a seed. -/
def ofSeed (seed : UInt64) : ChaCha where
  key := Vector.ofFn fun i : Fin 8 => stretchWord (stretchStates seed i)
  block := 0
  atHand := []

end ChaCha

end DeadReckoning
