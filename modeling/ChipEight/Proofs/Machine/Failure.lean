import ChipEight.Proofs.Machine.Change
/-!
# Failures

Exactly when a step or an execution fails and with which fault, for a machine in any state whatever,
and that a failure leaves nothing behind.
-/
namespace ChipEight.Machine

/-- Under strict settings the opcode `op`, lying at `site`, breaks the discipline of the call stack: it
returns with no address to go back to, or calls with the stack at its limit or past it. -/
def StackFault (m : Machine) (op : Opcode) (site : UInt16) (f : Fault) : Prop :=
  m.config.strict = true ∧
    ((op = 0x00EE ∧ m.state.stack.frames = [] ∧ f = .stackUnderflow site) ∨
     (op.family = 0x2 ∧ m.state.stack.limit ≤ m.state.stack.depth ∧
      f = .stackOverflow site m.state.stack.limit))

theorem carryOut_error_iff_stackFault (m : Machine) (op : Opcode) (f : Fault) :
    m.state.carryOut m.config.strict op = .error f ↔ m.StackFault op (m.state.pc - 2) f :=
  State.carryOut_eq_error_iff _ _ _ _

/-- Past an opcode, the address to blame is the opcode's own. -/
theorem advance_carryOut_error_iff_stackFault (m : Machine) (op : Opcode) (f : Fault) :
    m.advance.state.carryOut m.config.strict op = .error f ↔ m.StackFault op m.state.pc f := by
  have site : m.advance.state.pc - 2 = m.state.pc := UInt16.add_sub_cancel _ _
  rw [State.carryOut_eq_error_iff, site]
  rfl

theorem step_error_iff (m : Machine) (f : Fault) :
    m.step.result = .error f ↔
      (4096 ≤ m.state.pc.toNat + 1 ∧ f = .pcOutOfBounds m.state.pc) ∨
      ∃ op, m.peek m.state.pc = some op ∧ m.StackFault op m.state.pc f := by
  rw [← peek_eq_none_iff]
  cases fetched : m.peek m.state.pc with
  | none =>
    rw [(step_of_none fetched).2]
    simp [eq_comm]
  | some op =>
    have faulty := advance_carryOut_error_iff_stackFault m op f
    simp only [reduceCtorEq, false_and, false_or, Option.some.injEq, exists_eq_left', ← faulty]
    cases carried : m.advance.state.carryOut m.config.strict op with
    | ok after => simp [(step_of_ok fetched carried).2]
    | error g => simp [(step_of_error fetched carried).2]

theorem step_machine_of_error {m : Machine} {f : Fault} (failed : m.step.result = .error f) :
    m.step.machine = m := by
  rcases step_cases m with ⟨op, after, -, -, -, done⟩ | ⟨g, same, -⟩
  · rw [done] at failed
    cases failed
  · exact same

/-- Behind a step that leaves no address to go back to, a return fails. -/
theorem return_fails_behind_step {m : Machine} {op : Opcode} {after : State} {site : UInt16}
    (fetched : m.peek m.state.pc = some op)
    (carried : m.advance.state.carryOut m.config.strict op = .ok after)
    (behind : after.pc = site) (returns : after.memory.word? site = some 0x00EE)
    (strict : m.config.strict = true) (bare : after.stack.frames = []) :
    m.step.result = .ok op ∧ m.step.machine.state = after ∧
    m.step.machine.step.result = .error (.stackUnderflow site) := by
  obtain ⟨reached, done⟩ := step_of_ok fetched carried
  have state : m.step.machine.state = after := by
    rw [reached]
    rfl
  refine ⟨done, state, ?_⟩
  rw [step_error_iff, state, behind]
  refine .inr ⟨0x00EE, ?_, ?_⟩
  · rw [reached]
    exact returns
  · rw [reached]
    exact ⟨strict, .inl ⟨rfl, bare, rfl⟩⟩

theorem execute_error_iff (m : Machine) (op : Opcode) (f : Fault) :
    (m.execute op).result = .error f ↔ m.StackFault op (m.state.pc - 2) f := by
  rw [← carryOut_error_iff_stackFault]
  cases carried : m.state.carryOut m.config.strict op with
  | ok after => simp [(execute_of_ok carried).2]
  | error g => simp [execute_of_error carried]

theorem execute_machine_of_error {m : Machine} {op : Opcode} {f : Fault}
    (failed : (m.execute op).result = .error f) : (m.execute op).machine = m := by
  cases carried : m.state.carryOut m.config.strict op with
  | ok after =>
    rw [(execute_of_ok carried).2] at failed
    cases failed
  | error g => rw [execute_of_error carried]

/-- A step fails exactly at the end of memory and at a strict fault of the call stack, an execution
exactly at the latter, and both name the address of the opcode. The machine is then the one before:
every field of its state, the states that it can go back to and the opcodes that it remembers. -/
theorem failures_exact_and_atomic (m : Machine) :
    (∀ f, m.step.result = .error f ↔
      (4096 ≤ m.state.pc.toNat + 1 ∧ f = .pcOutOfBounds m.state.pc) ∨
      ∃ op, m.peek m.state.pc = some op ∧ m.StackFault op m.state.pc f) ∧
    (∀ f, m.step.result = .error f → m.step.machine = m) ∧
    (∀ op f, (m.execute op).result = .error f ↔ m.StackFault op (m.state.pc - 2) f) ∧
    (∀ op f, (m.execute op).result = .error f → (m.execute op).machine = m) :=
  ⟨step_error_iff m, fun _ => step_machine_of_error, execute_error_iff m,
    fun _ _ => execute_machine_of_error⟩

end ChipEight.Machine
