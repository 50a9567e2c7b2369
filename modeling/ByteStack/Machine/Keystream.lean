/-
This file is the machine's source of random bytes. A seed determines the whole
stream: it is expanded to a key, the key drives ChaCha with twelve rounds and a
sixty-four-bit block counter, and each random byte is the low byte of the next
word of that stream.

The stream is given by index, so a machine needs to remember only its seed and
how many bytes it has drawn.
-/

namespace ByteStack.Keystream

/-! ### The key -/

/-- Steps of the generator that expands a seed. -/
def advanceSeed (state : UInt64) : UInt64 :=
  state * 6364136223846793005 + 11634580027462260723

/-- Rotates a word to the left, by less than its width. -/
def rotateLeft (word : UInt32) (distance : UInt32) : UInt32 :=
  (word <<< distance) ||| (word >>> (32 - distance))

/-- Rotates a word to the right, by less than its width. -/
def rotateRight (word : UInt32) (distance : UInt32) : UInt32 :=
  (word >>> distance) ||| (word <<< (32 - distance))

/-- The word that a state of the generator puts out: its bits are folded together and turned
by the amount that its five highest bits name. -/
def outputWord (state : UInt64) : UInt32 :=
  rotateRight (((state >>> 18) ^^^ state) >>> 27).toUInt32 (state >>> 59).toUInt32

/-- The next `count` words of the generator. -/
def seedWords : Nat → UInt64 → List UInt32
  | 0, _ => []
  | count + 1, state =>
    let next := advanceSeed state
    outputWord next :: seedWords count next

/-- The eight words of the key of a seed. -/
def key (seed : UInt64) : List UInt32 :=
  seedWords 8 seed

/-! ### Blocks -/

/-- The sixteen words that a block is made of. -/
abbrev Block := Vector UInt32 16

/-- The words in front of the key. -/
def constants : List UInt32 :=
  [0x61707865, 0x3320646e, 0x79622d32, 0x6b206574]

/-- The words from which block `counter` is made: constants, key, counter with its low word
first, and two zeros. -/
def initialBlock (seed : UInt64) (counter : UInt64) : Block :=
  let words := constants ++ key seed ++ [counter.toUInt32, (counter >>> 32).toUInt32, 0, 0]
  Vector.ofFn fun index => words.getD index 0

/-- Mixes four words of a block. -/
def quarterRound (a b c d : Fin 16) (block : Block) : Block :=
  let wa := block[a] + block[b]
  let wd := rotateLeft (block[d] ^^^ wa) 16
  let wc := block[c] + wd
  let wb := rotateLeft (block[b] ^^^ wc) 12
  let wa := wa + wb
  let wd := rotateLeft (wd ^^^ wa) 8
  let wc := wc + wd
  let wb := rotateLeft (wb ^^^ wc) 7
  (((block.set a wa).set b wb).set c wc).set d wd

/-- Mixes the four columns of a block and then its four diagonals. -/
def doubleRound (block : Block) : Block :=
  let block := quarterRound 0 4 8 12 block
  let block := quarterRound 1 5 9 13 block
  let block := quarterRound 2 6 10 14 block
  let block := quarterRound 3 7 11 15 block
  let block := quarterRound 0 5 10 15 block
  let block := quarterRound 1 6 11 12 block
  let block := quarterRound 2 7 8 13 block
  quarterRound 3 4 9 14 block

def doubleRounds : Nat → Block → Block
  | 0, block => block
  | count + 1, block => doubleRounds count (doubleRound block)

/-- Block `counter` of the stream: twelve rounds, and the initial words added. -/
def block (seed : UInt64) (counter : UInt64) : Block :=
  let initial := initialBlock seed counter
  Vector.zipWith (· + ·) (doubleRounds 6 initial) initial

/-- Random byte number `index` of a seed. -/
def byte (seed : UInt64) (index : Nat) : UInt8 :=
  ((block seed (UInt64.ofNat (index / 16)))[Fin.ofNat 16 index]).toUInt8

end ByteStack.Keystream
