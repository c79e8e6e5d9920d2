import ChipEight.Proofs.Machine.Lockstep
/-!
# Mirrored machines

A machine mirrors another one if their states differ in the call stacks only, and their histories in what
a relation `H` lets them. `Faithful` is what the settings of the two have to provide for, and
`Mirrors.single` says that then every single operation gives the same answer on both and keeps the one
a mirror of the other.
-/
namespace ChipEight

/-- The state with another call stack, made from the one it has. -/
def State.mapStack (g : CallStack → CallStack) (s : State) : State := { s with stack := g s.stack }

namespace Machine

/-- The fault that an answer reports. -/
def Answer.fault? : Answer → Option Fault
  | .executed (.error f) | .opcode (.error f) | .frame (.error f) => some f
  | _ => none

/-- `n` is `m` with its call stacks seen through `g` and its history through `H`. -/
structure Mirrors (g : CallStack → CallStack) (H : List State → List State → Prop) (m n : Machine) :
    Prop where
  state : n.state = m.state.mapStack g
  history : H m.history n.history
  past : n.past = m.past

/-- Opcodes do the same to the states of both machines, but for the stacks, and fail alike with such
faults as are `permitted`. The relation between the histories outlasts what is done to them: both start
anew, take a further state in within their bounds, or give their latest state back. -/
structure Faithful (g : CallStack → CallStack) (H : List State → List State → Prop)
    (permitted : Fault → Prop) (m n : Machine) : Prop where
  carried {s after : State} {op : Opcode} (stack : s.stack = m.state.stack)
    (done : s.carryOut m.config.strict op = .ok after) :
    (s.mapStack g).carryOut n.config.strict op = .ok (after.mapStack g)
  faulted {s : State} {op : Opcode} {f : Fault} (failed : s.carryOut m.config.strict op = .error f)
    (fine : permitted f) : (s.mapStack g).carryOut n.config.strict op = .error f
  forgotten : H [] []
  remembered (s : State) (aligned : H m.history n.history) :
    H (save m.config.historyLimit s m.history)
      (save n.config.historyLimit (s.mapStack g) n.history)
  undone {s : State} {older all : List State} (aligned : H (s :: older) all) :
    ∃ rest, all = s.mapStack g :: rest ∧ H older rest

namespace Mirrors

variable {g : CallStack → CallStack} {H : List State → List State → Prop}
  {permitted : Fault → Prop} {m n : Machine}

theorem peek (mirrors : Mirrors g H m n) : n.peek n.state.pc = m.peek m.state.pc := by
  rw [Machine.peek, Machine.peek, mirrors.state]
  rfl

theorem advance (mirrors : Mirrors g H m n) :
    n.advance.state = m.advance.state.mapStack g := by
  rw [Machine.advance, Machine.advance, mirrors.state]
  rfl

/-- Whatever only works on the state keeps the mirror, if it does the same to both states. -/
theorem withState (mirrors : Mirrors g H m n) {s t : State} (same : t = s.mapStack g) :
    Mirrors g H { m with state := s } { n with state := t } :=
  ⟨same, mirrors.history, mirrors.past⟩

/-- Another program in both memories leaves no history to compare. -/
theorem withMemory (mirrors : Mirrors g H m n) (forgotten : H [] []) (memory : Memory) :
    Mirrors g H { m with state := { m.state with memory := memory }, history := [], past := [] }
      { n with state := { n.state with memory := memory }, history := [], past := [] } := by
  rw [mirrors.state]
  exact ⟨rfl, forgotten, rfl⟩

theorem load (mirrors : Mirrors g H m n) (forgotten : H [] []) (rom : Rom) :
    Mirrors g H (m.load rom).machine (n.load rom).machine := by
  have memory : n.state.memory = m.state.memory := by rw [mirrors.state]; rfl
  rw [load_machine, load_machine, memory]
  exact mirrors.withMemory forgotten _

theorem fetch (mirrors : Mirrors g H m n) :
    n.fetch.result = m.fetch.result ∧ Mirrors g H m.fetch.machine n.fetch.machine := by
  cases fetched : m.peek m.state.pc with
  | none =>
    rw [fetch_of_none fetched, fetch_of_none (mirrors.peek.trans fetched), mirrors.state]
    exact ⟨rfl, mirrors⟩
  | some op =>
    rw [fetch_of_some fetched, fetch_of_some (mirrors.peek.trans fetched)]
    exact ⟨rfl, mirrors.advance, mirrors.history, mirrors.past⟩

theorem takeFrame (mirrors : Mirrors g H m n) :
    n.takeFrame.result = m.takeFrame.result ∧
    Mirrors g H m.takeFrame.machine n.takeFrame.machine := by
  rw [takeFrame_machine, takeFrame_machine, mirrors.state]
  refine ⟨?_, mirrors.withState rfl⟩
  have wish : n.state.redraw = m.state.redraw := by rw [mirrors.state]; rfl
  have screen : n.state.screen = m.state.screen := by rw [mirrors.state]; rfl
  unfold Machine.takeFrame
  rw [wish, screen]
  split <;> rfl

variable (faithful : Faithful g H permitted m n)

include faithful

theorem execute (mirrors : Mirrors g H m n) {op : Opcode}
    (fine : ∀ f, (m.execute op).result = .error f → permitted f) :
    (n.execute op).result = (m.execute op).result ∧
    Mirrors g H (m.execute op).machine (n.execute op).machine := by
  cases carried : m.state.carryOut m.config.strict op with
  | ok after =>
    have carried' := faithful.carried rfl carried
    rw [← mirrors.state] at carried'
    obtain ⟨reached, done⟩ := execute_of_ok carried
    obtain ⟨reached', done'⟩ := execute_of_ok carried'
    rw [reached, done, reached', done']
    exact ⟨rfl, mirrors.withState rfl⟩
  | error f =>
    have failed := execute_of_error carried
    have failed' := faithful.faulted carried (fine f (by rw [failed]))
    rw [← mirrors.state] at failed'
    rw [failed, execute_of_error failed']
    exact ⟨rfl, mirrors⟩

theorem step (mirrors : Mirrors g H m n) (fine : ∀ f, m.step.result = .error f → permitted f) :
    n.step.result = m.step.result ∧ Mirrors g H m.step.machine n.step.machine := by
  have found := mirrors.peek
  cases fetched : m.peek m.state.pc with
  | none =>
    rw [fetched] at found
    obtain ⟨stays, failed⟩ := step_of_none fetched
    obtain ⟨stays', failed'⟩ := step_of_none found
    rw [stays, failed, stays', failed', mirrors.state]
    exact ⟨rfl, mirrors⟩
  | some op =>
    rw [fetched] at found
    cases carried : m.advance.state.carryOut m.config.strict op with
    | error f =>
      obtain ⟨stays, failed⟩ := step_of_error fetched carried
      have carried' := faithful.faulted carried (fine f failed)
      rw [← mirrors.advance] at carried'
      obtain ⟨stays', failed'⟩ := step_of_error found carried'
      rw [stays, failed, stays', failed']
      exact ⟨rfl, mirrors⟩
    | ok after =>
      have carried' := faithful.carried (s := m.advance.state) rfl carried
      rw [← mirrors.advance] at carried'
      obtain ⟨reached, done⟩ := step_of_ok fetched carried
      obtain ⟨reached', done'⟩ := step_of_ok found carried'
      rw [reached, done, reached', done', mirrors.state, remember, remember, mirrors.past]
      exact ⟨rfl, rfl, faithful.remembered m.state mirrors.history, rfl⟩

/-- A machine without history may only be mirrored by one without. -/
theorem rewind (mirrors : Mirrors g H m n) (fine : m.rewind.result = false → n.history = []) :
    n.rewind.result = m.rewind.result ∧ Mirrors g H m.rewind.machine n.rewind.machine := by
  cases history : m.history with
  | nil =>
    obtain ⟨stays, failed⟩ := rewind_of_nil history
    obtain ⟨stays', failed'⟩ := rewind_of_nil (fine failed)
    rw [stays, failed, stays', failed']
    exact ⟨rfl, mirrors⟩
  | cons before older =>
    have aligned := mirrors.history
    rw [history] at aligned
    obtain ⟨rest, all, behind⟩ := faithful.undone aligned
    obtain ⟨reached, done⟩ := rewind_of_cons history
    obtain ⟨reached', done'⟩ := rewind_of_cons all
    rw [reached, done, reached', done', mirrors.past]
    exact ⟨rfl, rfl, behind, rfl⟩

/-- A single operation gives the same answer on a machine and its mirror and keeps the mirror, as long
as it reports no other faults than those permitted. -/
theorem single (mirrors : Mirrors g H m n) {op : Operation} (noFrame : op ≠ .runFrame)
    (fine : ∀ f, (m.perform op).result.fault? = some f → permitted f)
    (empty : op = .rewind → m.rewind.result = false → n.history = []) :
    (n.perform op).result = (m.perform op).result ∧
    Mirrors g H (m.perform op).machine (n.perform op).machine := by
  cases op with
  | runFrame => exact absurd rfl noFrame
  | load rom => exact ⟨rfl, mirrors.load faithful.forgotten rom⟩
  | fetch => exact mirrors.fetch.imp_left (congrArg Answer.opcode)
  | execute code =>
    refine (mirrors.execute faithful fun f failed => fine f ?_).imp_left (congrArg Answer.executed)
    simp only [perform, Outcome.map, failed, Answer.fault?]
  | step =>
    refine (mirrors.step faithful fun f failed => fine f ?_).imp_left (congrArg Answer.opcode)
    simp only [perform, Outcome.map, failed, Answer.fault?]
  | rewind => exact (mirrors.rewind faithful (empty rfl)).imp_left (congrArg Answer.flag)
  | takeFrame => exact mirrors.takeFrame.imp_left (congrArg Answer.picture)
  | press k =>
    refine ⟨rfl, mirrors.withState ?_⟩
    rw [mirrors.state]
    rfl
  | release k =>
    refine ⟨rfl, mirrors.withState ?_⟩
    rw [mirrors.state]
    rfl
  | tickDelay =>
    have delay : n.state.delay = m.state.delay := by rw [mirrors.state]; rfl
    refine ⟨congrArg (fun t : Timer => Answer.flag t.isActive) delay, mirrors.withState ?_⟩
    rw [mirrors.state]
    rfl
  | tickSound =>
    have sound : n.state.sound = m.state.sound := by rw [mirrors.state]; rfl
    refine ⟨congrArg (fun t : Timer => Answer.flag t.isActive) sound, mirrors.withState ?_⟩
    rw [mirrors.state]
    rfl

end Mirrors

end Machine

end ChipEight
