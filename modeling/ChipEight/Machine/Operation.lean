import ChipEight.Machine.Frame
/-!
# Operations as data

Everything that a host can do to a machine (the specification, §6 and §10.4), and what comes back, so
that whole runs can be spoken of.
-/
namespace ChipEight.Machine

inductive Operation where
  | load (rom : Rom)
  | fetch
  | execute (op : Opcode)
  | step
  | runFrame
  | rewind
  | takeFrame
  | press (k : Key)
  | release (k : Key)
  | tickDelay
  | tickSound
  deriving DecidableEq, Repr

/-- What an operation answers. -/
inductive Answer where
  | nothing
  | flag (b : Bool)
  | count (n : Nat)
  | executed (r : Except Fault Unit)
  | opcode (r : Except Fault Opcode)
  | frame (r : Except Fault FrameReport)
  | picture (s : Option Screen)

namespace Outcome

/-- The outcome with its result put another way. -/
def map {α β : Type} (f : α → β) (o : Outcome α) : Outcome β := ⟨o.machine, f o.result, o.log⟩

end Outcome

def perform (m : Machine) : Operation → Outcome Answer
  | .load rom => (m.load rom).map .count
  | .fetch => m.fetch.map .opcode
  | .execute op => (m.execute op).map .executed
  | .step => m.step.map .opcode
  | .runFrame => m.runFrame.map .frame
  | .rewind => m.rewind.map .flag
  | .takeFrame => m.takeFrame.map .picture
  | .press k => ⟨m.press k, .nothing, []⟩
  | .release k => ⟨m.release k, .nothing, []⟩
  | .tickDelay => m.tickDelay.map .flag
  | .tickSound => m.tickSound.map .flag

/-- The machine after a list of operations. -/
def performAll (m : Machine) (ops : List Operation) : Machine :=
  ops.foldl (fun m op => (m.perform op).machine) m

end ChipEight.Machine
