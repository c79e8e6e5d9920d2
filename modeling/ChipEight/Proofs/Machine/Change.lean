import ChipEight.Machine.Operation
import ChipEight.Proofs.Instruction.Footprint
/-!
# Single operations

What a machine can do in one go. `State.carryOut` is an opcode's whole effect on a state under either
fault policy; a machine executes by it (`execute_of_ok`, `execute_of_error`) and steps by it
(`step_of_ok`, `step_of_error`), and a failure puts everything back. `Change` lists what every
operation but a frame can do, so that an invariant is a case split on it.
-/
namespace ChipEight

namespace State

/-- The state after an opcode: a fault is passed on under strict settings and otherwise skipped. -/
def carryOut (strict : Bool) (op : Opcode) (s : State) : Except Fault State :=
  match (Instruction.decode op).run { s with refused := false } with
  | .ok after => .ok after
  | .error f => if strict then .error f else .ok { s with refused := true }

theorem carryOut_of_run {op : Opcode} {s after : State}
    (ran : (Instruction.decode op).run { s with refused := false } = .ok after) (strict : Bool) :
    s.carryOut strict op = .ok after := by
  simp only [carryOut, ran]

theorem carryOut_ok {strict : Bool} {op : Opcode} {s after : State}
    (h : s.carryOut strict op = .ok after) :
    (Instruction.decode op).run { s with refused := false } = .ok after ∨
    (strict = false ∧ after = { s with refused := true } ∧
      ∃ f, (Instruction.decode op).run { s with refused := false } = .error f) := by
  unfold carryOut at h
  cases ran : (Instruction.decode op).run { s with refused := false } with
  | ok reached =>
    rw [ran] at h
    exact Or.inl h
  | error f =>
    rw [ran] at h
    cases strict with
    | true => cases h
    | false =>
      cases h
      exact Or.inr ⟨rfl, rfl, f, rfl⟩

theorem carryOut_error {strict : Bool} {op : Opcode} {s : State} {f : Fault}
    (h : s.carryOut strict op = .error f) :
    strict = true ∧ (Instruction.decode op).run { s with refused := false } = .error f := by
  unfold carryOut at h
  cases ran : (Instruction.decode op).run { s with refused := false } with
  | ok reached => simp [ran] at h
  | error g =>
    cases strict with
    | true =>
      simp only [ran, if_true] at h
      exact ⟨rfl, h⟩
    | false => simp [ran] at h

/-- An opcode faults only under strict settings, as a return with no address or a call with no
room. -/
theorem carryOut_eq_error_iff (strict : Bool) (op : Opcode) (s : State) (f : Fault) :
    s.carryOut strict op = .error f ↔ strict = true ∧
      ((op = 0x00EE ∧ s.stack.frames = [] ∧ f = .stackUnderflow (s.pc - 2)) ∨
       (op.family = 0x2 ∧ s.stack.limit ≤ s.stack.depth ∧
        f = .stackOverflow (s.pc - 2) s.stack.limit)) := by
  have faulty := Instruction.run_decode_eq_error_iff op { s with refused := false } f
  rw [← faulty, carryOut]
  cases (Instruction.decode op).run { s with refused := false } with
  | ok after => simp
  | error g => cases strict <;> simp

/-- Only calls and returns move the stack, and by one address at a time. -/
theorem carryOut_stack {strict : Bool} {op : Opcode} {s after : State}
    (h : s.carryOut strict op = .ok after) :
    after.stack = s.stack ∨
    (op.family = 0x2 ∧ s.stack.depth < s.stack.limit ∧
      after.stack = { s.stack with frames := s.pc :: s.stack.frames }) ∨
    (op = 0x00EE ∧ s.stack = { after.stack with frames := after.pc :: after.stack.frames }) := by
  rcases carryOut_ok h with ran | ⟨-, rfl, -⟩
  · rcases Instruction.run_stack ran with same | ⟨⟨a, called⟩, room, pushed⟩ | ⟨returned, popped⟩
    · exact Or.inl same
    · exact Or.inr (Or.inl ⟨((Instruction.decode_eq_call_iff op a).mp called).1, room, pushed⟩)
    · exact Or.inr (Or.inr ⟨(Instruction.decode_eq_ret_iff op).mp returned, popped⟩)
  · exact Or.inl rfl

theorem carryOut_screen {strict : Bool} {op : Opcode} {s after : State}
    (h : s.carryOut strict op = .ok after) :
    if (Instruction.decode op).paints then after.redraw = true
    else after.screen = s.screen ∧ after.redraw = s.redraw := by
  rcases carryOut_ok h with ran | ⟨-, rfl, f, failed⟩
  · have painted := Instruction.run_screen ran
    exact painted
  · rcases (Instruction.run_eq_error_iff _ _ f).mp failed with ⟨returned, -⟩ | ⟨⟨a, called⟩, -⟩
    · rw [returned]
      exact ⟨rfl, rfl⟩
    · rw [called]
      exact ⟨rfl, rfl⟩

end State

namespace Machine

/-- The machine with its program counter past the opcode there. -/
def advance (m : Machine) : Machine := { m with state := { m.state with pc := m.state.pc + 2 } }

theorem peek_eq_none_iff (m : Machine) (a : UInt16) : m.peek a = none ↔ 4096 ≤ a.toNat + 1 := by
  unfold peek Memory.word?
  split
  next inside => simp only [reduceCtorEq, false_iff]; omega
  next outside => simp only [true_iff]; omega

theorem lt_of_peek {m : Machine} {a : UInt16} {op : Opcode} (found : m.peek a = some op) :
    a.toNat + 1 < 4096 := by
  refine Nat.lt_of_not_le fun outside => ?_
  rw [(peek_eq_none_iff m a).mpr outside] at found
  cases found

theorem fetch_of_some {m : Machine} {op : Opcode} (fetched : m.peek m.state.pc = some op) :
    m.fetch = ⟨m.advance, .ok op, []⟩ := by
  unfold fetch
  rw [fetched]
  rfl

theorem fetch_of_none {m : Machine} (ended : m.peek m.state.pc = none) :
    m.fetch = ⟨m, .error (.pcOutOfBounds m.state.pc), []⟩ := by
  unfold fetch
  rw [ended]

/-- Of the instructions that run, only those that are refused are logged. -/
theorem execute_of_run {m : Machine} {op : Opcode} {after : State}
    (ran : (Instruction.decode op).run { m.state with refused := false } = .ok after) :
    m.execute op = ⟨{ m with state := after }, .ok (),
      if (Instruction.decode op).form.isRefused then [.refused op] else []⟩ := by
  simp only [execute, Instruction.perform_of_run_ok ran]

theorem execute_of_skipped {m : Machine} {op : Opcode} {f : Fault}
    (faulted : (Instruction.decode op).run { m.state with refused := false } = .error f)
    (lenient : m.config.strict = false) :
    m.execute op =
      ⟨{ m with state := { m.state with refused := true } }, .ok (), [.skipped f]⟩ := by
  simp only [execute, Instruction.perform_of_run_error faulted, lenient, Bool.false_eq_true, if_false]

theorem execute_of_ok {m : Machine} {op : Opcode} {after : State}
    (carried : m.state.carryOut m.config.strict op = .ok after) :
    (m.execute op).machine = { m with state := after } ∧ (m.execute op).result = .ok () := by
  rcases State.carryOut_ok carried with ran | ⟨lenient, rfl, f, faulted⟩
  · rw [execute_of_run ran]
    exact ⟨rfl, rfl⟩
  · rw [execute_of_skipped faulted lenient]
    exact ⟨rfl, rfl⟩

/-- A fault under strict settings leaves the state as it was, once its mark is put back. -/
theorem execute_of_error {m : Machine} {op : Opcode} {f : Fault}
    (faulted : m.state.carryOut m.config.strict op = .error f) : m.execute op = ⟨m, .error f, []⟩ := by
  obtain ⟨strict, failed⟩ := State.carryOut_error faulted
  simp only [execute, Instruction.perform_of_run_error failed, strict, if_true]

/-- A step that finds no opcode. -/
theorem step_of_none {m : Machine} (ended : m.peek m.state.pc = none) :
    m.step.machine = m ∧ m.step.result = .error (.pcOutOfBounds m.state.pc) := by
  unfold step
  rw [fetch_of_none ended]
  exact ⟨rfl, rfl⟩

/-- A step whose opcode faults. -/
theorem step_of_error {m : Machine} {op : Opcode} {f : Fault}
    (fetched : m.peek m.state.pc = some op)
    (faulted : m.advance.state.carryOut m.config.strict op = .error f) :
    m.step.machine = m ∧ m.step.result = .error f := by
  have failed : m.advance.execute op = ⟨m.advance, .error f, []⟩ := execute_of_error faulted
  unfold step
  rw [fetch_of_some fetched]
  simp only [failed, and_true]
  rfl

/-- A step that succeeds. -/
theorem step_of_ok {m : Machine} {op : Opcode} {after : State}
    (fetched : m.peek m.state.pc = some op)
    (carried : m.advance.state.carryOut m.config.strict op = .ok after) :
    m.step.machine = Machine.remember { m with state := after } m.state op ∧
      m.step.result = .ok op := by
  have executed := execute_of_ok (m := m.advance) carried
  unfold step
  rw [fetch_of_some fetched]
  simp only [executed.1, executed.2, and_true]
  rfl

/-- A step tells what it is about to do before it is done. -/
theorem step_log_of_some {m : Machine} {op : Opcode} (fetched : m.peek m.state.pc = some op) :
    m.step.log = .stepping op m.state.registers m.state.index m.state.pc ::
      (m.advance.execute op).log := by
  unfold step
  rw [fetch_of_some fetched]
  cases done : (m.advance.execute op).result <;> simp only [done] <;> rfl

theorem step_log_of_none {m : Machine} (ended : m.peek m.state.pc = none) : m.step.log = [] := by
  unfold step
  rw [fetch_of_none ended]

/-- Everything that a step can do. -/
theorem step_cases (m : Machine) :
    (∃ op after, m.peek m.state.pc = some op ∧
      m.advance.state.carryOut m.config.strict op = .ok after ∧
      m.step.machine = Machine.remember { m with state := after } m.state op ∧
      m.step.result = .ok op) ∨
    (∃ f, m.step.machine = m ∧ m.step.result = .error f) := by
  cases fetched : m.peek m.state.pc with
  | none => exact Or.inr ⟨_, step_of_none fetched⟩
  | some op =>
    cases carried : m.advance.state.carryOut m.config.strict op with
    | error f => exact Or.inr ⟨f, step_of_error fetched carried⟩
    | ok after => exact Or.inl ⟨op, after, rfl, carried, step_of_ok fetched carried⟩

/-! ## Every operation -/

/-- `Change m op after`: the operation `op`, which is no frame, takes the machine `m` to `after`. Where
an operation can fail there is a constructor for either outcome. -/
inductive Change (m : Machine) : Operation → Machine → Prop where
  | load (rom : Rom) (memory : Memory) : Change m (.load rom)
      { m with state := { m.state with memory := memory }, history := [], past := [] }
  | fetched {op : Opcode} (fetched : m.peek m.state.pc = some op) : Change m .fetch m.advance
  | unfetched : Change m .fetch m
  | executed {op : Opcode} {after : State}
      (carried : m.state.carryOut m.config.strict op = .ok after)
      (result : (m.execute op).result = .ok ()) :
      Change m (.execute op) { m with state := after }
  | unexecuted {op : Opcode} {f : Fault} (result : (m.execute op).result = .error f) :
      Change m (.execute op) m
  | stepped {op : Opcode} {after : State} (fetched : m.peek m.state.pc = some op)
      (carried : m.advance.state.carryOut m.config.strict op = .ok after)
      (result : m.step.result = .ok op) :
      Change m .step (Machine.remember { m with state := after } m.state op)
  | unstepped {f : Fault} (result : m.step.result = .error f) : Change m .step m
  | rewound {before : State} {older : List State} (history : m.history = before :: older) :
      Change m .rewind { m with state := before, history := older, past := m.past.tail }
  | unwound (history : m.history = []) : Change m .rewind m
  | takeFrame : Change m .takeFrame { m with state := { m.state with redraw := false } }
  | press (k : Key) : Change m (.press k) (m.press k)
  | release (k : Key) : Change m (.release k) (m.release k)
  | tickDelay : Change m .tickDelay m.tickDelay.machine
  | tickSound : Change m .tickSound m.tickSound.machine

/-- The opcode that an operation executes, if it gets that far. -/
def executed? (m : Machine) : Operation → Option Opcode
  | .step => m.step.result.toOption
  | .execute op => (m.execute op).result.toOption.map fun _ => op
  | _ => none

/-- Loading touches the memory only, and forgets what was remembered. -/
theorem load_machine (m : Machine) (rom : Rom) :
    (m.load rom).machine =
      { m with
        state := { m.state with memory := m.state.memory.load Rom.start rom.bytes }
        history := []
        past := [] } := by
  unfold load
  rw [Memory.replace_eq]

theorem load_result (m : Machine) (rom : Rom) :
    (m.load rom).result = Memory.fitting Rom.start rom.size := by
  unfold load
  rw [Memory.replace_eq]
  rfl

/-- Behind its start, a program that was loaded is found with zeros after its last byte. -/
theorem peek_load (m : Machine) (rom : Rom) {a : UInt16} (behind : Rom.start.toNat ≤ a.toNat)
    (inside : a.toNat + 1 < 4096) :
    (m.load rom).machine.peek a = some (.ofBytes (rom.bytes.getD (a.toNat - Rom.start.toNat) 0)
      (rom.bytes.getD (a.toNat + 1 - Rom.start.toNat) 0)) := by
  rw [load_machine]
  exact Memory.word?_load m.state.memory rom.bytes behind inside

theorem rewind_of_cons {m : Machine} {before : State} {older : List State}
    (history : m.history = before :: older) :
    m.rewind.machine = { m with state := before, history := older, past := m.past.tail } ∧
      m.rewind.result = true := by
  simp only [rewind, history, and_self]

theorem rewind_of_nil {m : Machine} (history : m.history = []) :
    m.rewind.machine = m ∧ m.rewind.result = false := by
  simp only [rewind, history, and_self]

theorem takeFrame_machine (m : Machine) :
    m.takeFrame.machine = { m with state := { m.state with redraw := false } } := by
  cases wish : m.state.redraw with
  | true => simp only [takeFrame, wish, if_true]
  | false =>
    have same : { m.state with redraw := false } = m.state := by rw [← wish]
    simp only [takeFrame, wish, Bool.false_eq_true, if_false, same]

theorem change_of_perform (m : Machine) {op : Operation} (noFrame : op ≠ .runFrame) :
    Change m op (m.perform op).machine := by
  cases op with
  | runFrame => exact absurd rfl noFrame
  | load rom => exact .load rom _
  | fetch =>
    change Change m .fetch m.fetch.machine
    cases fetched : m.peek m.state.pc with
    | none => rw [fetch_of_none fetched]; exact .unfetched
    | some op => rw [fetch_of_some fetched]; exact .fetched fetched
  | execute op =>
    change Change m (.execute op) (m.execute op).machine
    cases carried : m.state.carryOut m.config.strict op with
    | ok after =>
      rw [(execute_of_ok carried).1]
      exact .executed carried (execute_of_ok carried).2
    | error f =>
      have failed := execute_of_error carried
      rw [failed]
      exact .unexecuted (congrArg Outcome.result failed)
  | step =>
    change Change m .step m.step.machine
    rcases step_cases m with ⟨op, after, fetched, carried, done, result⟩ | ⟨f, same, result⟩
    · rw [done]
      exact .stepped fetched carried result
    · rw [same]
      exact .unstepped result
  | rewind =>
    change Change m .rewind m.rewind.machine
    cases history : m.history with
    | nil => rw [(rewind_of_nil history).1]; exact .unwound history
    | cons before older => rw [(rewind_of_cons history).1]; exact .rewound history
  | takeFrame =>
    change Change m .takeFrame m.takeFrame.machine
    rw [takeFrame_machine]
    exact .takeFrame
  | press k => exact .press k
  | release k => exact .release k
  | tickDelay => exact .tickDelay
  | tickSound => exact .tickSound

/-- Where a machine is and what it can go back to from there does not depend on the program loaded. -/
theorem load_keeps (m : Machine) (rom : Rom) :
    (m.load rom).machine.config = m.config ∧ (m.load rom).machine.state.pc = m.state.pc ∧
    (m.load rom).machine.state.stack = m.state.stack := by
  have change : Change m (.load rom) (m.load rom).machine := change_of_perform m nofun
  generalize (m.load rom).machine = after at change ⊢
  cases change
  exact ⟨rfl, rfl, rfl⟩

end Machine

end ChipEight
