import ChipEight.CallStack
import ChipEight.Config
import ChipEight.Keypad
import ChipEight.Memory
import ChipEight.Screen
import ChipEight.Timer
/-!
# The state of a machine

All that instructions read and change (the specification, §3).
-/
namespace ChipEight

abbrev Registers := Vector UInt8 16

structure State where
  memory : Memory
  registers : Registers
  /-- The address register `I`. -/
  index : UInt16
  pc : UInt16
  stack : CallStack
  screen : Screen
  /-- The screen may have changed since the host last took a picture. -/
  redraw : Bool
  delay : Timer
  sound : Timer
  keypad : Keypad
  /-- The last opcode could not be carried out. -/
  refused : Bool
  random : Random.Stream
  deriving DecidableEq

namespace State

/-- The register that takes carries, borrows and collisions. -/
def flag : Register := 0xF

/-- The state before a program is loaded. Without a seed in the settings, its random bytes are those of
`chance`. -/
def initial (config : Config) (chance : Random.Stream := .ofSeed 0) : State where
  memory := .initial
  registers := Vector.replicate 16 0
  index := 0
  pc := Rom.start
  stack := .empty config.maxStackDepth
  screen := .blank
  redraw := false
  delay := .stopped
  sound := .stopped
  keypad := .released
  refused := false
  random := config.source chance

/-- The value of a register. -/
def v (s : State) (r : Register) : UInt8 := s.registers[r]

def setV (s : State) (r : Register) (b : UInt8) : State :=
  { s with registers := s.registers.set r b }

/-- Moves the program counter past one more opcode if `c` holds. -/
def skipIf (s : State) (c : Bool) : State := if c then { s with pc := s.pc + 2 } else s

/-- Moves `I`, which is kept within memory. -/
def setIndex (s : State) (a : UInt16) : State := { s with index := (Address.wrap a).toWord }

theorem v_setV (s : State) (r q : Register) (b : UInt8) :
    (s.setV r b).v q = if r = q then b else s.v q := by
  simp only [v, setV, Fin.getElem_fin, Vector.getElem_set, Fin.val_inj]

end State

end ChipEight
