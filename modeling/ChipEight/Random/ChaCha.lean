import ChipEight.Opcode
/-!
# The ChaCha block function

Sixteen 32-bit words, stirred by quarter rounds along the columns and the diagonals of a four by four
square, and added to the words that they came from. The block is addressed by a counter, so that any
block of the sequence can be had by itself.
-/
namespace ChipEight.Random

abbrev Block := Vector UInt32 16

abbrev StreamKey := Vector UInt32 8

namespace ChaCha

def rotateLeft (w : UInt32) (count : UInt32) : UInt32 := (w <<< count) ||| (w >>> (32 - count))

/-- Stirs four words of a block. -/
def quarterRound (s : Block) (i j k l : Nibble) : Block :=
  let a := s[i] + s[j]
  let d := rotateLeft (s[l] ^^^ a) 16
  let c := s[k] + d
  let b := rotateLeft (s[j] ^^^ c) 12
  let a := a + b
  let d := rotateLeft (d ^^^ a) 8
  let c := c + d
  let b := rotateLeft (b ^^^ c) 7
  (((s.set i a).set j b).set k c).set l d

/-- A round along the columns and one along the diagonals. -/
def doubleRound (s : Block) : Block :=
  let s := quarterRound s 0 4 8 12
  let s := quarterRound s 1 5 9 13
  let s := quarterRound s 2 6 10 14
  let s := quarterRound s 3 7 11 15
  let s := quarterRound s 0 5 10 15
  let s := quarterRound s 1 6 11 12
  let s := quarterRound s 2 7 8 13
  quarterRound s 3 4 9 14

def doubleRounds : Nat → Block → Block
  | 0, s => s
  | count + 1, s => doubleRounds count (doubleRound s)

/-- The words that a block starts from: four constants, the key, the counter with its low word first,
and a nonce of zero. -/
def start (key : StreamKey) (counter : UInt64) : Block :=
  #v[0x61707865, 0x3320646e, 0x79622d32, 0x6b206574,
     key[0], key[1], key[2], key[3], key[4], key[5], key[6], key[7],
     counter.toUInt32, (counter >>> 32).toUInt32, 0, 0]

/-- The block at a counter, after twelve rounds. -/
def block (key : StreamKey) (counter : UInt64) : Block :=
  Vector.zipWith (· + ·) (doubleRounds 6 (start key counter)) (start key counter)

end ChaCha

end ChipEight.Random
