import ChipEight.Proofs.Machine.Transcript
/-!
# Refusals and warnings

An opcode that is passed over leaves three traces: the mark in the state, a warning, and nothing else.
`execute_cases` says so for a machine in any state whatever, and `refusals_and_warnings` carries it over
to the messages of whole runs.
-/
namespace ChipEight.Machine

/-- The opcode `op` is one to be passed over: no machine can carry it out, or it breaks the discipline
of the call stack where that is no failure. -/
def Refuses (m : Machine) (op : Opcode) : Prop :=
  (Instruction.decode op).form = .machineRoutine ∨ (Instruction.decode op).form = .unknown ∨
  (m.config.strict = false ∧
    ((op = 0x00EE ∧ m.state.stack.frames = []) ∨
     (op.family = 0x2 ∧ m.state.stack.limit ≤ m.state.stack.depth)))

/-- An opcode runs, silently; or it is passed over with one warning, and only the mark is set; or it
fails, silently, and nothing is changed. -/
theorem execute_cases (m : Machine) (op : Opcode) :
    (¬ m.Refuses op ∧ ∃ after, after.refused = false ∧
      m.execute op = ⟨{ m with state := after }, .ok (), []⟩) ∨
    (m.Refuses op ∧ ∃ message, message.level = .warn ∧
      m.execute op = ⟨{ m with state := { m.state with refused := true } }, .ok (), [message]⟩) ∨
    ∃ f, m.execute op = ⟨m, .error f, []⟩ := by
  have faulty := Instruction.run_decode_eq_error_iff op { m.state with refused := false }
  cases ran : (Instruction.decode op).run { m.state with refused := false } with
  | ok after =>
    cases bad : (Instruction.decode op).form.isRefused with
    | true =>
      have stays := Instruction.run_of_isRefused bad { m.state with refused := false }
      right; left
      refine ⟨?_, .refused op, rfl, ?_⟩
      · rw [Refuses, ← or_assoc, ← Form.isRefused_iff]
        exact Or.inl bad
      · rw [execute_of_run stays, bad, if_pos rfl]
    | false =>
      have mark := Instruction.run_refused ran
      rw [bad, Bool.or_false] at mark
      left
      refine ⟨?_, after, mark, ?_⟩
      · rw [Refuses, ← or_assoc, ← Form.isRefused_iff, bad]
        rintro (⟨⟨⟩⟩ | ⟨-, ⟨returns, empty⟩ | ⟨calls, full⟩⟩)
        · rw [(faulty _).mpr (Or.inl ⟨returns, empty, rfl⟩)] at ran
          cases ran
        · rw [(faulty _).mpr (Or.inr ⟨calls, full, rfl⟩)] at ran
          cases ran
      · rw [execute_of_run ran, bad, if_neg Bool.false_ne_true]
  | error f =>
    right
    cases strict : m.config.strict with
    | true =>
      right
      refine ⟨f, execute_of_error ?_⟩
      rw [State.carryOut, ran, strict]
      rfl
    | false =>
      left
      refine ⟨Or.inr (Or.inr ⟨strict, ?_⟩), .skipped f, rfl, execute_of_skipped ran strict⟩
      exact ((faulty f).mp ran).imp (fun ret => ⟨ret.1, ret.2.1⟩) fun call => ⟨call.1, call.2.1⟩

/-! ## Messages of a run -/

/-- Whether a message is of a level. -/
def Event.isAt (level : LogLevel) (message : Event) : Bool := message.level = level

/-- The operation executes an opcode without failing, and leaves it marked as refused. -/
def passesOver (m : Machine) (op : Operation) : Bool :=
  (m.executed? op).isSome && (m.perform op).machine.state.refused

/-- The operation is a step that finds an opcode. -/
def stepsOn (m : Machine) : Operation → Bool
  | .step => m.fetch.result.isOk
  | _ => false

/-- What an execution logs is a warning, and there is one exactly if the opcode was passed over. -/
theorem execute_messages (m : Machine) (op : Opcode) :
    (m.execute op).log.countP (Event.isAt .warn) = (if m.passesOver (.execute op) then 1 else 0) ∧
    (m.execute op).log.countP (Event.isAt .trace) = 0 := by
  have answer : m.passesOver (.execute op) =
      ((m.execute op).result.toOption.isSome && (m.execute op).machine.state.refused) := by
    rw [passesOver, executed?, Option.isSome_map]
    rfl
  rw [answer]
  rcases execute_cases m op with ⟨-, after, mark, ran⟩ | ⟨-, message, level, passed⟩ | ⟨f, failed⟩
  · rw [ran]
    simp [Except.toOption, mark]
  · rw [passed]
    simp [Except.toOption, Event.isAt, level]
  · rw [failed]
    simp [Except.toOption]

/-- A step that finds an opcode passes it over if its execution does. -/
theorem passesOver_step {m : Machine} {op : Opcode} (fetched : m.peek m.state.pc = some op) :
    m.passesOver .step = m.advance.passesOver (.execute op) := by
  cases carried : m.advance.state.carryOut m.config.strict op with
  | ok after =>
    obtain ⟨reached, result⟩ := step_of_ok fetched carried
    obtain ⟨executed, done⟩ := execute_of_ok (m := m.advance) carried
    simp only [passesOver, executed?, perform, Outcome.map, reached, result, executed, done]
    rfl
  | error f =>
    have failed : m.advance.execute op = ⟨m.advance, .error f, []⟩ := execute_of_error carried
    simp [passesOver, executed?, (step_of_error fetched carried).2, failed, Except.toOption]

theorem step_messages (m : Machine) :
    m.step.log.countP (Event.isAt .warn) = (if m.passesOver .step then 1 else 0) ∧
    m.step.log.countP (Event.isAt .trace) = if m.stepsOn .step then 1 else 0 := by
  cases fetched : m.peek m.state.pc with
  | none =>
    simp [step_log_of_none fetched, passesOver, executed?, (step_of_none fetched).2, stepsOn,
      fetch_of_none fetched, Except.toOption, Except.isOk, Except.toBool]
  | some op =>
    obtain ⟨warnings, traces⟩ := execute_messages m.advance op
    rw [step_log_of_some fetched, passesOver_step fetched, stepsOn, fetch_of_some fetched]
    constructor
    · rw [List.countP_cons_of_neg (by simp [Event.isAt, Event.level]), warnings]
    · rw [List.countP_cons_of_pos (by simp [Event.isAt, Event.level]), traces]
      rfl

/-- Whatever executes no opcode is logged for debugging only. -/
theorem perform_log_level {m : Machine} {op : Operation} (noFrame : op ≠ .runFrame)
    (noStep : op ≠ .step) (noExecute : ∀ code, op ≠ .execute code) :
    ∀ message ∈ (m.perform op).log, message.level = .debug := by
  intro message mem
  cases op with
  | runFrame | step => contradiction
  | execute code => exact absurd rfl (noExecute code)
  | load rom =>
    obtain rfl := List.mem_singleton.mp mem
    split <;> rfl
  | rewind =>
    change message ∈ m.rewind.log at mem
    unfold rewind at mem
    split at mem
    · cases mem
    · obtain rfl := List.mem_singleton.mp mem
      rfl
  | fetch =>
    change message ∈ m.fetch.log at mem
    unfold fetch at mem
    split at mem <;> cases mem
  | takeFrame =>
    change message ∈ m.takeFrame.log at mem
    unfold takeFrame at mem
    split at mem <;> cases mem
  | press k | release k | tickDelay | tickSound => cases mem

/-- Only steps and executions warn, and only steps trace. -/
theorem perform_messages (m : Machine) (op : Operation) (noFrame : op ≠ .runFrame) :
    (m.perform op).log.countP (Event.isAt .warn) = (if m.passesOver op then 1 else 0) ∧
    (m.perform op).log.countP (Event.isAt .trace) = if m.stepsOn op then 1 else 0 := by
  by_cases step : op = .step
  · subst step
    exact step_messages m
  by_cases execute : ∃ code, op = .execute code
  · obtain ⟨code, rfl⟩ := execute
    exact execute_messages m code
  have debug := perform_log_level (m := m) noFrame step fun code same => execute ⟨code, same⟩
  have idle : m.passesOver op = false ∧ m.stepsOn op = false := by
    cases op <;> first | exact ⟨rfl, rfl⟩ | simp at step execute
  rw [idle.1, idle.2, List.countP_eq_zero.mpr, List.countP_eq_zero.mpr]
  · exact ⟨rfl, rfl⟩
  · exact fun message mem => by simp [Event.isAt, debug message mem]
  · exact fun message mem => by simp [Event.isAt, debug message mem]

/-- The mark of refusal, its effect and its warning go together, for a machine in any state. An
execution that succeeds leaves the mark exactly if the opcode is one to be passed over; it has then done
nothing else, and has given one warning, and otherwise none. One that fails gives no warning and leaves
the mark as it was. Over a whole run, there are as many warnings as opcodes passed over, and as many
traces as steps that found an opcode. -/
theorem refusals_and_warnings (m : Machine) :
    (∀ op,
      match (m.execute op).result with
      | .ok () =>
        ((m.execute op).machine.state.refused = true ↔ m.Refuses op) ∧
        ((m.execute op).machine.state.refused = true →
          (m.execute op).machine = { m with state := { m.state with refused := true } }) ∧
        (m.execute op).log.countP (Event.isAt .warn) =
          if (m.execute op).machine.state.refused then 1 else 0
      | .error _ =>
        (m.execute op).log.countP (Event.isAt .warn) = 0 ∧
        (m.execute op).machine.state.refused = m.state.refused) ∧
    ∀ ops,
      (m.logged ops).countP (Event.isAt .warn) = m.tally passesOver ops ∧
      (m.logged ops).countP (Event.isAt .trace) = m.tally stepsOn ops := by
  constructor
  · intro op
    rcases execute_cases m op with
      ⟨heeds, after, mark, ran⟩ | ⟨refuses, message, level, passed⟩ | ⟨f, failed⟩
    · rw [ran]
      simp [mark, heeds]
    · rw [passed]
      simp [refuses, Event.isAt, level]
    · rw [failed]
      exact ⟨rfl, rfl⟩
  · intro ops
    exact ⟨countP_logged (fun m op noFrame => (perform_messages m op noFrame).1) m ops,
      countP_logged (fun m op noFrame => (perform_messages m op noFrame).2) m ops⟩

end ChipEight.Machine
