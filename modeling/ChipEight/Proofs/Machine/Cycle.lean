import ChipEight.Proofs.Machine.Address
import ChipEight.Proofs.Machine.Failure
import ChipEight.Proofs.Machine.Replay
/-!
# Cycles by hand

A host can let a machine step, or fetch each opcode and execute it in two calls. Besides that a step
remembers where it came from and, when its opcode fails, goes back to it. The first does not show in the
state, so that both ways lead through the same states as long as no cycle fails; the second does, and
where the opcode of a cycle by hand breaks the discipline of the call stack, the program counter stays
behind it (`step_eq_fetch_execute`).
-/
namespace ChipEight.Machine

/-- Fetches an opcode and, if there is one, executes it. -/
def cycle (m : Machine) : Outcome (Except Fault Opcode) :=
  let fetched := m.fetch
  match fetched.result with
  | .error f => ⟨fetched.machine, .error f, fetched.log⟩
  | .ok op =>
    let executed := fetched.machine.execute op
    ⟨executed.machine, executed.result.map fun _ => op, fetched.log ++ executed.log⟩

theorem cycle_of_none {m : Machine} (ended : m.peek m.state.pc = none) :
    m.cycle.machine = m ∧ m.cycle.result = .error (.pcOutOfBounds m.state.pc) := by
  unfold cycle
  rw [fetch_of_none ended]
  exact ⟨rfl, rfl⟩

theorem cycle_of_error {m : Machine} {op : Opcode} {f : Fault}
    (fetched : m.peek m.state.pc = some op)
    (faulted : m.advance.state.carryOut m.config.strict op = .error f) :
    m.cycle.machine = m.advance ∧ m.cycle.result = .error f := by
  have failed : m.advance.execute op = ⟨m.advance, .error f, []⟩ := execute_of_error faulted
  unfold cycle
  rw [fetch_of_some fetched]
  simp only [failed, true_and]
  rfl

theorem cycle_of_ok {m : Machine} {op : Opcode} {after : State}
    (fetched : m.peek m.state.pc = some op)
    (carried : m.advance.state.carryOut m.config.strict op = .ok after) :
    m.cycle.machine = { m with state := after } ∧ m.cycle.result = .ok op := by
  obtain ⟨reached, done⟩ := execute_of_ok (m := m.advance) carried
  unfold cycle
  rw [fetch_of_some fetched]
  simp only [reached, done]
  exact ⟨rfl, rfl⟩

/-- The states that a cycle with the opcode at `a` leaves, taken as a step and by hand: the same, unless
the call stack faults. Then the step leaves the program counter at the opcode, the cycle by hand leaves
it behind it, and that is all the difference. -/
def Parted (a : UInt16) (result : Except Fault Opcode) (stepped byHand : State) : Prop :=
  match result with
  | .ok _ | .error (.pcOutOfBounds _) => byHand = stepped
  | .error (.stackUnderflow _) | .error (.stackOverflow _ _) =>
    stepped.pc = a ∧ byHand = { stepped with pc := a + 2 } ∧ (a + 2).toNat = a.toNat + 2

theorem cycle_parted (m : Machine) :
    m.cycle.result = m.step.result ∧ m.cycle.machine.config = m.config ∧
    Parted m.state.pc m.step.result m.step.machine.state m.cycle.machine.state := by
  cases fetched : m.peek m.state.pc with
  | none =>
    obtain ⟨stays, failed⟩ := step_of_none fetched
    obtain ⟨stays', failed'⟩ := cycle_of_none fetched
    rw [stays, failed, stays', failed']
    exact ⟨rfl, rfl, rfl⟩
  | some op =>
    cases carried : m.advance.state.carryOut m.config.strict op with
    | ok after =>
      obtain ⟨reached, done⟩ := step_of_ok fetched carried
      obtain ⟨reached', done'⟩ := cycle_of_ok fetched carried
      rw [reached, done, reached', done']
      exact ⟨rfl, rfl, rfl⟩
    | error f =>
      obtain ⟨stays, failed⟩ := step_of_error fetched carried
      obtain ⟨behind, failed'⟩ := cycle_of_error fetched carried
      have next : (m.state.pc + 2).toNat = m.state.pc.toNat + 2 := (advance_pc fetched).1
      rw [stays, failed, behind, failed']
      refine ⟨rfl, rfl, ?_⟩
      -- An opcode that was fetched can only break the discipline of the stack.
      obtain ⟨-, ⟨-, -, rfl⟩ | ⟨-, -, rfl⟩⟩ :=
        (advance_carryOut_error_iff_stackFault m op f).mp carried
      · exact ⟨rfl, rfl, next⟩
      · exact ⟨rfl, rfl, next⟩

/-! ## Runs -/

/-- An operation, with a cycle by hand in place of a step. -/
def performByHand (m : Machine) : Operation → Outcome Answer
  | .step => m.cycle.map .opcode
  | op => m.perform op

/-- The machine after a list of operations, its cycles done by hand. -/
def performAllByHand (m : Machine) (ops : List Operation) : Machine :=
  ops.foldl (fun m op => (m.performByHand op).machine) m

def answersByHand (m : Machine) : List Operation → List Answer
  | [] => []
  | op :: ops => (m.performByHand op).result :: (m.performByHand op).machine.answersByHand ops

/-- Where the first machine does not fail to step, a cycle by hand of the second gives the same answer
and leaves the two alike, and so does any other operation but a rewind. -/
theorem Alike.performByHand {m n : Machine} (alike : Alike m n) {op : Operation}
    (noRewind : op ≠ .rewind) (fine : ∀ f, op = .step → m.step.result ≠ .error f) :
    (n.performByHand op).result = (m.perform op).result ∧
    Alike (m.perform op).machine (n.performByHand op).machine := by
  by_cases steps : op = .step
  · subst steps
    obtain ⟨result, settings, parted⟩ := cycle_parted n
    obtain ⟨same, after⟩ := alike.step
    refine ⟨congrArg Answer.opcode (result.trans same), ?_, ?_⟩
    · exact settings.trans (alike.config.trans (performAll_config m [.step]).symm)
    · rw [same] at parted
      cases done : m.step.result with
      | error f => exact absurd done (fine f rfl)
      | ok code =>
        rw [done] at parted
        exact Eq.trans parted after.state
  · have performed : n.performByHand op = n.perform op := by
      cases op <;> first | rfl | contradiction
    have single : .rewind ∉ [op] := by simpa using noRewind.symm
    obtain ⟨told, state⟩ := alike.answers single
    rw [performed]
    refine ⟨(List.cons.inj told).1, ?_, state⟩
    rw [← performAll_nil (m.perform op).machine, ← performAll_cons, performAll_config]
    exact (performAll_config n [op]).trans alike.config

theorem Alike.answersByHand {m n : Machine} (alike : Alike m n) {ops : List Operation}
    (noRewind : .rewind ∉ ops)
    (fine : ∀ f, (.step, .opcode (.error f)) ∉ ops.zip (m.answers ops)) :
    n.answersByHand ops = m.answers ops ∧ Alike (m.performAll ops) (n.performAllByHand ops) := by
  induction ops generalizing m n with
  | nil => exact ⟨rfl, alike⟩
  | cons op ops ih =>
    rw [List.mem_cons, not_or] at noRewind
    simp only [answers_cons, List.zip_cons_cons, List.mem_cons, not_or] at fine
    have first : ∀ f, op = .step → m.step.result ≠ .error f := by
      rintro f rfl failed
      apply (fine f).1
      simp only [perform, Outcome.map, failed]
    obtain ⟨result, after⟩ := alike.performByHand (Ne.symm noRewind.1) first
    obtain ⟨rest, ends⟩ := ih after noRewind.2 fun f => (fine f).2
    refine ⟨?_, ends⟩
    rw [Machine.answersByHand, answers_cons, result, rest]

/-- Take a new machine through operations other than rewinds in which no step fails, and another one
through the same with each step done by hand, as a fetch and an execution. Both give the same answers and
are in the same state, and the next cycle comes out the same on both: with the same opcode and the same
state, or with the same fault. If the program counter had left memory the states still agree then;
after a fault of the call stack they differ in the program counter alone. -/
theorem step_eq_fetch_execute (config : Config) (random : Random.Stream) (ops : List Operation)
    (noRewind : .rewind ∉ ops)
    (fine : ∀ f, (.step, .opcode (.error f)) ∉ ops.zip ((newWith config random).answers ops)) :
    let start := newWith config random
    let stepping := start.performAll ops
    let byHand := start.performAllByHand ops
    start.answersByHand ops = start.answers ops ∧
    byHand.state = stepping.state ∧
    byHand.cycle.result = stepping.step.result ∧
    Parted stepping.state.pc stepping.step.result stepping.step.machine.state
      byHand.cycle.machine.state := by
  intro start stepping byHand
  have same : Alike start start := ⟨rfl, rfl⟩
  obtain ⟨answers, alike⟩ := same.answersByHand noRewind fine
  obtain ⟨result, -, parted⟩ := cycle_parted byHand
  obtain ⟨stepped, after⟩ := Alike.step alike
  rw [stepped, alike.state, after.state] at parted
  exact ⟨answers, alike.state, result.trans stepped, parted⟩

private theorem cycles_until_fault {m : Machine} (start : m.state.pc = 0x200)
    (first : m.peek 0x200 = some 0x6001) (second : m.peek 0x202 = some 0x00EE)
    (strict : m.config.strict = true) (bare : m.state.stack.frames = []) :
    m.step.result = .ok 0x6001 ∧
    m.step.machine.state.pc = 0x202 ∧ m.step.machine.step.result = .error (.stackUnderflow 0x202) := by
  have set : m.advance.state.carryOut m.config.strict 0x6001 = .ok
      { m.advance.state.setV 0 1 with refused := false } := rfl
  have pc : m.advance.state.pc = 0x202 := by
    change m.state.pc + 2 = 0x202
    rw [start]
    rfl
  obtain ⟨done, state, failed⟩ :=
    return_fails_behind_step (start ▸ first) set pc second strict bare
  rw [state]
  exact ⟨done, pc, failed⟩

private theorem loaded_cycles {m : Machine} (start : m.state.pc = 0x200)
    (strict : m.config.strict = true) (bare : m.state.stack.frames = []) :
    let ops : List Operation := [.load ⟨#[0x60, 0x01, 0x00, 0xEE]⟩, .step]
    m.answers ops = [.count 4, .opcode (.ok 0x6001)] ∧
    (m.performAll ops).state.pc = 0x202 ∧
    (m.performAll ops).step.result = .error (.stackUnderflow 0x202) := by
  intro ops
  let loaded := (m.load ⟨#[0x60, 0x01, 0x00, 0xEE]⟩).machine
  have first : loaded.peek 0x200 = some 0x6001 :=
    (peek_load m _ (by decide) (by decide)).trans (by decide)
  have second : loaded.peek 0x202 = some 0x00EE :=
    (peek_load m _ (by decide) (by decide)).trans (by decide)
  obtain ⟨settings, place, stack⟩ := load_keeps m ⟨#[0x60, 0x01, 0x00, 0xEE]⟩
  obtain ⟨done, pc, failed⟩ := cycles_until_fault (m := loaded) (place.trans start)
    first second (by rw [settings, strict]) (by rw [stack, bare])
  have told : m.answers ops = [.count 4, .opcode loaded.step.result] := rfl
  rw [told, done]
  exact ⟨rfl, pc, failed⟩

/-- A cycle that succeeds, and then a return without an address to go back to: the program counter is at
it after a step, and behind it by hand. -/
theorem step_eq_fetch_execute_until_underflow :
    let config := { Config.standard with strict := true }
    let start := newWith config (.ofSeed 0)
    let ops : List Operation := [.load ⟨#[0x60, 0x01, 0x00, 0xEE]⟩, .step]
    .rewind ∉ ops ∧
    (∀ f, (.step, .opcode (.error f)) ∉ ops.zip (start.answers ops)) ∧
    start.answersByHand ops = [.count 4, .opcode (.ok 0x6001)] ∧
    (start.performAll ops).step.machine.state.pc = 0x202 ∧
    (start.performAllByHand ops).cycle.result = .error (.stackUnderflow 0x202) ∧
    (start.performAllByHand ops).cycle.machine.state.pc = 0x204 := by
  intro config start ops
  obtain ⟨told, pc, failed⟩ := loaded_cycles (m := start) rfl rfl rfl
  have noRewind : .rewind ∉ ops := by simp [ops]
  have fine : ∀ f, (.step, .opcode (.error f)) ∉ ops.zip (start.answers ops) := by
    rw [told]
    simp [ops]
  obtain ⟨answers, -, result, parted⟩ := step_eq_fetch_execute config (.ofSeed 0) ops noRewind fine
  rw [failed] at result
  rw [failed, pc] at parted
  obtain ⟨back, behind, -⟩ := parted
  refine ⟨noRewind, fine, answers.trans told, back, result, ?_⟩
  exact congrArg State.pc behind

end ChipEight.Machine
