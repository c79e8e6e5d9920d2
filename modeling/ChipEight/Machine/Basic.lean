import ChipEight.Instruction.Effect
import ChipEight.Machine.Event
/-!
# The machine

A state with its settings, the states that can be gone back to, and the opcodes that led here (the
specification, §4.2 and §10.4). Each operation gives an `Outcome`: the machine afterwards, a result, and
what was logged. What an operation changes before it fails it puts back itself; that nothing is left of a
failure is a theorem, `step_machine_of_error`.
-/
namespace ChipEight

structure Machine where
  config : Config
  state : State
  /-- The states before the latest steps, the latest first. -/
  history : List State
  /-- The opcodes of the latest steps, the latest first. -/
  past : List Opcode
  deriving DecidableEq

namespace Machine

/-- How many opcodes of the past a machine remembers. -/
def pastLimit : Nat := 35

/-- What an operation leaves behind; the log has the earliest message first. -/
structure Outcome (α : Type) where
  machine : Machine
  result : α
  log : List Event

/-- A machine without a program. `chance` is the stream drawn for settings without a seed; the one of
seed 0 stands in where none was drawn. -/
def new (config : Config) (chance : Random.Stream := .ofSeed 0) : Machine :=
  ⟨config, .initial config chance, [], []⟩

/-- Replaces the program by another, as much of it as fits, and gives the number of bytes loaded. What
was remembered belongs to the program before and is forgotten. -/
def load (m : Machine) (rom : Rom) : Outcome Nat :=
  let (memory, kept) := m.state.memory.replace Rom.start rom.bytes
  { machine := { m with state := { m.state with memory := memory }, history := [], past := [] }
    result := kept
    log := [if kept < rom.size then .truncated rom.size kept else .loaded kept] }

/-- The opcode at an address, unless it runs past the end of memory. -/
def peek (m : Machine) (a : UInt16) : Option Opcode := m.state.memory.word? a

/-- At most `count` opcodes from `a` on, each with its address, up to the end of memory. -/
def opcodesFrom (m : Machine) (a : UInt16) : Nat → List (UInt16 × Opcode)
  | 0 => []
  | count + 1 =>
    match m.peek a with
    | some op => (a, op) :: opcodesFrom m (a + 2) count
    | none => []

/-- Takes the opcode at the program counter and moves the counter past it. -/
def fetch (m : Machine) : Outcome (Except Fault Opcode) :=
  match m.peek m.state.pc with
  | some op => ⟨{ m with state := { m.state with pc := m.state.pc + 2 } }, .ok op, []⟩
  | none => ⟨m, .error (.pcOutOfBounds m.state.pc), []⟩

/-- Carries an opcode out. A fault is an error under strict settings, and the mark of the opcode before
is put back; otherwise the instruction is skipped and counts as refused. -/
def execute (m : Machine) (op : Opcode) : Outcome (Except Fault Unit) :=
  let i := Instruction.decode op
  let (after, result) := i.perform { m.state with refused := false }
  match result with
  | .ok () => ⟨{ m with state := after }, .ok (), if i.form.isRefused then [.refused op] else []⟩
  | .error f =>
    if m.config.strict then
      ⟨{ m with state := { after with refused := m.state.refused } }, .error f, []⟩
    else ⟨{ m with state := { after with refused := true } }, .ok (), [.skipped f]⟩

/-- Puts something in front of what is kept, of which the last goes if it has come to the bound. -/
def push {α : Type} (bound : Nat) (a : α) (kept : List α) : List α :=
  a :: if kept.length = bound then kept.dropLast else kept

/-- The same where the bound may be zero, so that nothing is kept at all. -/
def save {α : Type} (bound : Nat) (a : α) (kept : List α) : List α :=
  if 0 < bound then push bound a kept else kept

/-- The machine after a successful step from the state `before`. -/
def remember (m : Machine) (before : State) (op : Opcode) : Machine :=
  { m with
    history := save m.config.historyLimit before m.history
    past := push pastLimit op m.past }

/-- Fetches an opcode and carries it out. If that fails, the program counter is put back to the
opcode. -/
def step (m : Machine) : Outcome (Except Fault Opcode) :=
  let fetched := m.fetch
  match fetched.result with
  | .error f => ⟨fetched.machine, .error f, fetched.log⟩
  | .ok op =>
    let done := fetched.machine.execute op
    let log := fetched.log
      ++ .stepping op m.state.registers m.state.index m.state.pc :: done.log
    match done.result with
    | .error f =>
      ⟨{ done.machine with state := { done.machine.state with pc := m.state.pc } }, .error f, log⟩
    | .ok () => ⟨done.machine.remember m.state op, .ok op, log⟩

/-- Undoes the latest step, if it is remembered. -/
def rewind (m : Machine) : Outcome Bool :=
  match m.history with
  | [] => ⟨m, false, []⟩
  | s :: rest =>
    ⟨{ m with state := s, history := rest, past := m.past.tail }, true,
      [.rewound s.pc rest.length]⟩

/-- The screen, if it may have changed since this was last asked. -/
def takeFrame (m : Machine) : Outcome (Option Screen) :=
  if m.state.redraw then
    ⟨{ m with state := { m.state with redraw := false } }, some m.state.screen, []⟩
  else ⟨m, none, []⟩

/-- Counts the delay timer down and tells whether it was running. -/
def tickDelay (m : Machine) : Outcome Bool :=
  ⟨{ m with state := { m.state with delay := m.state.delay.tick } }, m.state.delay.isActive, []⟩

/-- Counts the sound timer down and tells whether it was running. -/
def tickSound (m : Machine) : Outcome Bool :=
  ⟨{ m with state := { m.state with sound := m.state.sound.tick } }, m.state.sound.isActive, []⟩

def press (m : Machine) (k : Key) : Machine :=
  { m with state := { m.state with keypad := m.state.keypad.press k } }

def release (m : Machine) (k : Key) : Machine :=
  { m with state := { m.state with keypad := m.state.keypad.release k } }

/-- Whether the next step waits for a key that nobody has pressed. -/
def isWaitingForKey (m : Machine) : Bool :=
  (m.peek m.state.pc).any (fun op => (Instruction.decode op).form == .waitKey)
    && m.state.keypad.current.isNone

/-- The opcodes of the latest steps, the earliest first. -/
def pastOpcodes (m : Machine) : List Opcode := m.past.reverse

end Machine

end ChipEight
