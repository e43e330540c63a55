/-!
# Drawing a key

A key is drawn from a seed of 64 bits. A permuted congruential generator stretches the seed to eight
words, which are the key of a ChaCha generator with twelve rounds; the first word of its first block
is drawn.
-/
namespace CubePatch

/-- The next state of the generator that stretches a seed. -/
def stretchState (state : UInt64) : UInt64 :=
  state * 6364136223846793005 + 11634580027462260723

def rotateRight (word : UInt32) (count : UInt32) : UInt32 :=
  word >>> count ||| word <<< ((32 - count) % 32)

def rotateLeft (word : UInt32) (count : UInt32) : UInt32 :=
  word <<< count ||| word >>> ((32 - count) % 32)

/-- The word a state gives. -/
def stretchWord (state : UInt64) : UInt32 :=
  rotateRight (((state >>> 18) ^^^ state) >>> 27).toUInt32 (state >>> 59).toUInt32

/-- `count` words behind a state. -/
def stretch (count : Nat) (state : UInt64) : List UInt32 :=
  match count with
  | 0 => []
  | count + 1 => stretchWord (stretchState state) :: stretch count (stretchState state)

namespace ChaCha

/-- Sixteen words, in rows of four. -/
abbrev Block := Vector UInt32 16

/-- Mixes four words. -/
def quarterRound (block : Block) (a b c d : Fin 16) : Block :=
  let step (block : Block) (sum other target : Fin 16) (count : UInt32) : Block :=
    let block := block.set sum (block[sum] + block[other])
    block.set target (rotateLeft (block[target] ^^^ block[sum]) count)
  let block := step block a b d 16
  let block := step block c d b 12
  let block := step block a b d 8
  step block c d b 7

/-- Mixes the columns and then the diagonals. -/
def doubleRound (block : Block) : Block :=
  let block := quarterRound block 0 4 8 12
  let block := quarterRound block 1 5 9 13
  let block := quarterRound block 2 6 10 14
  let block := quarterRound block 3 7 11 15
  let block := quarterRound block 0 5 10 15
  let block := quarterRound block 1 6 11 12
  let block := quarterRound block 2 7 8 13
  quarterRound block 3 4 9 14

/-- The block for a key of eight words, with counter and nonce zero. -/
def initial (key : List UInt32) : Block :=
  let constants := [0x61707865, 0x3320646E, 0x79622D32, 0x6B206574]
  Vector.ofFn fun place => (constants ++ key).getD place 0

/-- The first output block: the initial block added to itself after the given double rounds. -/
def firstBlock (doubleRounds : Nat) (key : List UInt32) : Block :=
  let start := initial key
  let mixed := Nat.repeat doubleRound doubleRounds start
  Vector.ofFn fun place => mixed[place] + start[place]

end ChaCha

/-- The key drawn from a seed. -/
def drawKey (seed : UInt64) : UInt32 :=
  (ChaCha.firstBlock 6 (stretch 8 seed))[0]

end CubePatch
