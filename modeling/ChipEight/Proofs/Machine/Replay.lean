import ChipEight.Proofs.Machine.Lockstep
import ChipEight.Proofs.Machine.Timeline
/-!
# Replays

Two machines with the same settings in the same state are `Alike`, whatever they remember, and until a
rewind nobody can tell them apart (`lockstep_alike`). Rewinds bring back the state that steps started
from but not all that was remembered then, so what is done after them is done to a machine alike.
-/
namespace ChipEight.Machine

/-- The machines have the same settings and state. -/
structure Alike (m n : Machine) : Prop where
  config : n.config = m.config
  state : n.state = m.state

namespace Alike

variable {m n : Machine}

theorem withState (alike : Alike m n) (s : State) {older older' : List State}
    {past past' : List Opcode} :
    Alike { m with state := s, history := older, past := past }
      { n with state := s, history := older', past := past' } :=
  ⟨alike.config, rfl⟩

theorem peek (alike : Alike m n) : n.peek n.state.pc = m.peek m.state.pc := by
  rw [Machine.peek, Machine.peek, alike.state]

theorem advance (alike : Alike m n) : Alike m.advance n.advance :=
  ⟨alike.config, congrArg (fun s : State => { s with pc := s.pc + 2 }) alike.state⟩

theorem load (alike : Alike m n) (rom : Rom) :
    Alike (m.load rom).machine (n.load rom).machine := by
  rw [load_machine, load_machine, alike.state]
  exact alike.withState _

theorem fetch (alike : Alike m n) :
    n.fetch.result = m.fetch.result ∧ Alike m.fetch.machine n.fetch.machine := by
  cases fetched : m.peek m.state.pc with
  | none =>
    rw [fetch_of_none fetched, fetch_of_none (alike.peek.trans fetched), alike.state]
    exact ⟨rfl, alike⟩
  | some op =>
    rw [fetch_of_some fetched, fetch_of_some (alike.peek.trans fetched)]
    exact ⟨rfl, alike.advance⟩

theorem execute (alike : Alike m n) (op : Opcode) :
    (n.execute op).result = (m.execute op).result ∧
    Alike (m.execute op).machine (n.execute op).machine := by
  have same : n.state.carryOut n.config.strict op = m.state.carryOut m.config.strict op := by
    rw [alike.config, alike.state]
  cases carried : m.state.carryOut m.config.strict op with
  | ok after =>
    obtain ⟨reached, done⟩ := execute_of_ok carried
    obtain ⟨reached', done'⟩ := execute_of_ok (same.trans carried)
    rw [reached, done, reached', done']
    exact ⟨rfl, alike.withState after⟩
  | error f =>
    rw [execute_of_error carried, execute_of_error (same.trans carried)]
    exact ⟨rfl, alike⟩

theorem step (alike : Alike m n) :
    n.step.result = m.step.result ∧ Alike m.step.machine n.step.machine := by
  have found := alike.peek
  have same (op : Opcode) : n.advance.state.carryOut n.config.strict op =
      m.advance.state.carryOut m.config.strict op := by
    rw [alike.config, alike.advance.state]
  cases fetched : m.peek m.state.pc with
  | none =>
    rw [fetched] at found
    obtain ⟨stays, failed⟩ := step_of_none fetched
    obtain ⟨stays', failed'⟩ := step_of_none found
    rw [stays, failed, stays', failed', alike.state]
    exact ⟨rfl, alike⟩
  | some op =>
    rw [fetched] at found
    cases carried : m.advance.state.carryOut m.config.strict op with
    | error f =>
      obtain ⟨stays, failed⟩ := step_of_error fetched carried
      obtain ⟨stays', failed'⟩ := step_of_error found ((same op).trans carried)
      rw [stays, failed, stays', failed']
      exact ⟨rfl, alike⟩
    | ok after =>
      obtain ⟨reached, done⟩ := step_of_ok fetched carried
      obtain ⟨reached', done'⟩ := step_of_ok found ((same op).trans carried)
      rw [reached, done, reached', done']
      exact ⟨rfl, alike.withState after⟩

theorem takeFrame (alike : Alike m n) :
    n.takeFrame.result = m.takeFrame.result ∧ Alike m.takeFrame.machine n.takeFrame.machine := by
  constructor
  · unfold Machine.takeFrame
    rw [alike.state]
    split <;> rfl
  · rw [takeFrame_machine, takeFrame_machine, alike.state]
    exact alike.withState _

end Alike

/-- What machines remember shows in rewinds only. -/
theorem lockstep_alike : Lockstep Alike (fun op _ => op ≠ .rewind) where
  cadence {m n} alike := by
    rw [alike.config]
    exact ⟨rfl, rfl⟩
  single {m n} op alike noFrame noRewind := by
    cases op with
    | runFrame => exact absurd rfl noFrame
    | rewind => exact absurd rfl noRewind
    | fetch => exact alike.fetch.imp_left (congrArg Answer.opcode)
    | execute code => exact (alike.execute code).imp_left (congrArg Answer.executed)
    | step => exact alike.step.imp_left (congrArg Answer.opcode)
    | takeFrame => exact alike.takeFrame.imp_left (congrArg Answer.picture)
    | load rom => exact ⟨rfl, alike.load rom⟩
    | press k =>
      refine ⟨rfl, alike.config, ?_⟩
      exact congrArg (fun s : State => { s with keypad := s.keypad.press k }) alike.state
    | release k =>
      refine ⟨rfl, alike.config, ?_⟩
      exact congrArg (fun s : State => { s with keypad := s.keypad.release k }) alike.state
    | tickDelay =>
      refine ⟨congrArg (fun s : State => Answer.flag s.delay.isActive) alike.state,
        alike.config, ?_⟩
      exact congrArg (fun s : State => { s with delay := s.delay.tick }) alike.state
    | tickSound =>
      refine ⟨congrArg (fun s : State => Answer.flag s.sound.isActive) alike.state,
        alike.config, ?_⟩
      exact congrArg (fun s : State => { s with sound := s.sound.tick }) alike.state
  stepped op := nofun
  ticked running := ⟨nofun, nofun⟩
  failed fine := nofun

/-- Machines alike give the same answers as long as nobody rewinds, and stay in the same states. -/
theorem Alike.answers {m n : Machine} (alike : Alike m n) {ops : List Operation}
    (noRewind : .rewind ∉ ops) :
    n.answers ops = m.answers ops ∧ (n.performAll ops).state = (m.performAll ops).state := by
  obtain ⟨answers, later⟩ := lockstep_alike.answers alike fun told mem rewinds =>
    noRewind (rewinds ▸ (List.of_mem_zip mem).1)
  exact ⟨answers, (later ops (List.prefix_refl ops)).state⟩

/-- Steps that all succeed, within the bound on the history, are taken back by as many rewinds, which
leave a machine like the one before. -/
theorem alike_of_undone {m : Machine} (bounded : Bounded m) {count all : Nat}
    (within : count ≤ m.config.historyLimit) (done : (m.steps count).result = .ok all) :
    Alike m ((m.steps count).machine.performAll (.replicate count .rewind)) := by
  have reached : m.performAll (m.attempts count) = (m.steps count).machine :=
    performAll_attempts m count 0 []
  refine ⟨by rw [← reached, performAll_config, performAll_config], ?_⟩
  cases count with
  | zero => rfl
  | succ count =>
    obtain ⟨later, older, deep, history⟩ := steps_history bounded within done
    rw [← deep]
    rw [← deep] at history
    exact (performAll_rewinds history).2

end ChipEight.Machine
