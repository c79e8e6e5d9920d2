import ChipEight.Machine.Basic
/-!
# Frames

A frame is a fixed number of steps and then a fixed number of timer ticks (the specification, §10.4). A
step that fails ends the frame there, before any timer moves.
-/
namespace ChipEight.Machine

/-- What a host learns from a frame. -/
structure FrameReport where
  /-- The steps taken. -/
  executed : Nat
  /-- The sound timer is still running. -/
  soundActive : Bool
  /-- The sound timer ran out in this frame. -/
  beepStopped : Bool
  deriving DecidableEq, Repr

/-- At most `count` steps, up to the first that fails. `taken` is the number of steps taken before, and
`logged` what was logged before, the latest message first. -/
def stepsAfter (taken : Nat) (logged : List Event) (m : Machine) : Nat → Outcome (Except Fault Nat)
  | 0 => ⟨m, .ok taken, logged.reverse⟩
  | count + 1 =>
    let one := m.step
    let logged := one.log.reverse ++ logged
    match one.result with
    | .ok _ => stepsAfter (taken + 1) logged one.machine count
    | .error f => ⟨one.machine, .error f, logged.reverse⟩

/-- At most `count` steps, up to the first that fails; their number unless one does. -/
def steps (m : Machine) (count : Nat) : Outcome (Except Fault Nat) := stepsAfter 0 [] m count

/-- Counts both timers down `count` times and tells whether the sound timer ran out. -/
def ticks (m : Machine) : Nat → Machine × Bool
  | 0 => (m, false)
  | count + 1 =>
    let delayed := m.tickDelay.machine
    let sounded := delayed.tickSound
    let stopped := sounded.result && !sounded.machine.state.sound.isActive
    let later := ticks sounded.machine count
    (later.1, stopped || later.2)

/-- Runs one frame. Both timers hold a byte, so that ticks beyond 255 change nothing (`ticks_min`). -/
def runFrame (m : Machine) : Outcome (Except Fault FrameReport) :=
  let stepped := m.steps m.config.instructionsPerFrame
  match stepped.result with
  | .error f => ⟨stepped.machine, .error f, stepped.log⟩
  | .ok executed =>
    let ticked := stepped.machine.ticks (min m.config.timerTicksPerFrame 255)
    ⟨ticked.1, .ok ⟨executed, ticked.1.state.sound.isActive, ticked.2⟩, stepped.log⟩

end ChipEight.Machine
