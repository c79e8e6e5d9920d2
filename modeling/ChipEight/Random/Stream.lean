import ChipEight.Random.ChaCha
/-!
# Streams of random bytes

A stream makes the blocks of the ChaCha sequence under its key one at a time and gives out their words in
order; a random byte is the low byte of the next word. It is part of the state of a machine (the
specification, §10.2), so a machine that goes back to an earlier state gets the same bytes again.
-/
namespace ChipEight.Random

namespace Seed

/-- The next state of the generator that stretches a seed into a key. -/
def advance (s : UInt64) : UInt64 := s * 6364136223846793005 + 11634580027462260723

/-- The word that a state of that generator yields. -/
def word (s : UInt64) : UInt32 :=
  let w := (((s >>> 18) ^^^ s) >>> 27).toUInt32
  let count := (s >>> 59).toUInt32
  (w >>> count) ||| (w <<< (32 - count))

/-- The state after `count + 1` advances. -/
def state (seed : UInt64) : Nat → UInt64
  | 0 => advance seed
  | count + 1 => advance (state seed count)

/-- The key that a seed stands for. -/
def key (seed : UInt64) : StreamKey := Vector.ofFn fun i => word (state seed i.val)

end Seed

structure Stream where
  key : StreamKey
  /-- The counter of the block that is made next. -/
  counter : UInt64
  /-- The block made last. -/
  buffer : Block
  /-- How many words of that block have been given out. -/
  used : Fin 17
  deriving DecidableEq

namespace Stream

/-- The stream under a key from its start, with no block made yet. -/
def ofKey (key : StreamKey) : Stream := ⟨key, 0, Vector.replicate 16 0, 16⟩

def ofSeed (seed : UInt64) : Stream := ofKey (Seed.key seed)

/-- Makes the next block and takes its first word. The counter goes round its 64 bits. -/
def refill (s : Stream) : Stream :=
  { s with counter := s.counter + 1, buffer := ChaCha.block s.key s.counter, used := 1 }

/-- The next word, and the stream behind it. -/
def next (s : Stream) : UInt32 × Stream :=
  if left : s.used.val < 16 then
    (s.buffer[s.used.val], { s with used := ⟨s.used.val + 1, Nat.succ_lt_succ left⟩ })
  else (s.refill.buffer[0], s.refill)

/-- The next byte, which takes a whole word, and the stream behind it. -/
def nextByte (s : Stream) : UInt8 × Stream := (s.next.1.toUInt8, s.next.2)

end Stream

end ChipEight.Random
