import ChipEight.Random.Stream
/-!
# Settings of a machine

All that a host can choose about a machine (the specification, §10.2).
-/
namespace ChipEight

structure Config where
  /-- The most return addresses that the call stack may hold. -/
  maxStackDepth : Nat
  /-- Whether a fault of the call stack stops the machine; otherwise the instruction is skipped. -/
  strict : Bool
  /-- The seed of the random bytes; without one they are left to chance. -/
  seed : Option UInt64
  /-- The most steps that can be undone. -/
  historyLimit : Nat
  instructionsPerFrame : Nat
  timerTicksPerFrame : Nat
  deriving DecidableEq, Repr

/-- The usual settings: ten instructions and one timer tick in each of sixty frames a second. -/
def Config.standard : Config where
  maxStackDepth := 16
  strict := false
  seed := none
  historyLimit := 200
  instructionsPerFrame := 10
  timerTicksPerFrame := 1

/-- Where a new machine has its random bytes from: its seed, or else the stream that was drawn by
chance. -/
def Config.source (c : Config) (chance : Random.Stream) : Random.Stream :=
  match c.seed with
  | some seed => .ofSeed seed
  | none => chance

end ChipEight
