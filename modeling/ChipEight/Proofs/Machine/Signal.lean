import ChipEight.Proofs.Instruction.Address
import ChipEight.Proofs.Instruction.Reach
import ChipEight.Proofs.Machine.Transcript
/-!
# Signals from outside

Keys and timers are moved by the host, between one opcode and the next. An instruction that looks at
none of what a signal moves does the same before it and after it (`Instruction.run_apply`), and so
whole lists of opcodes can be executed around a signal that comes at any point (`signals_commute`).
The forms for which this fails are those that test or await a key, those that read or set the delay
timer, and the one that sets the sound timer, which no instruction reads.
-/
namespace ChipEight

/-- What a host does to a machine beside having it execute opcodes. -/
inductive Signal where
  | press (k : Key)
  | release (k : Key)
  | tickDelay
  | tickSound
  deriving DecidableEq, Repr

namespace Signal

/-- The signal as an operation on a machine. -/
def operation : Signal → Machine.Operation
  | press k => .press k
  | release k => .release k
  | tickDelay => .tickDelay
  | tickSound => .tickSound

/-- What a signal does to a state. -/
def apply (e : Signal) (s : State) : State :=
  match e with
  | press k => { s with keypad := s.keypad.press k }
  | release k => { s with keypad := s.keypad.release k }
  | tickDelay => { s with delay := s.delay.tick }
  | tickSound => { s with sound := s.sound.tick }

@[simp] theorem apply_stack (e : Signal) (s : State) : (e.apply s).stack = s.stack := by
  cases e <;> rfl

@[simp] theorem apply_pc (e : Signal) (s : State) : (e.apply s).pc = s.pc := by
  cases e <;> rfl

/-- A signal leaves the mark of refusal alone. -/
theorem apply_withMark (e : Signal) (s : State) (mark : Bool) :
    e.apply { s with refused := mark } = { e.apply s with refused := mark } := by
  cases e <;> rfl

/-- The forms that read or set what a signal moves. -/
def watchers : Signal → List Form
  | press _ | release _ => [.skipKeyDown, .skipKeyUp, .waitKey]
  | tickDelay => [.readDelay, .setDelay]
  | tickSound => [.setSound]

/-- The opcode fits the pattern of such a form. -/
def Concerns (e : Signal) (op : Opcode) : Prop := ∃ f ∈ e.watchers, f.covers op = true

theorem concerns_iff (e : Signal) (op : Opcode) :
    e.Concerns op ↔ (Instruction.decode op).form ∈ e.watchers := by
  have narrow {f : Form} (watches : f ∈ e.watchers) : f ≠ .machineRoutine ∧ f ≠ .unknown := by
    constructor <;>
    · rintro rfl
      cases e <;> simp [watchers] at watches
  constructor
  · rintro ⟨f, watches, fits⟩
    rwa [Instruction.form_decode_of_covers fits fun wide => absurd wide (narrow watches).1]
  · intro watches
    exact ⟨_, watches, Instruction.covers_form_decode (narrow watches).2⟩

end Signal

namespace Instruction

/-- An instruction that a signal does not concern does the same after it as before it. -/
theorem run_apply {i : Instruction} {e : Signal} (apart : i.form ∉ e.watchers) (s : State) :
    i.run (e.apply s) = (i.run s).map e.apply := by
  cases i with
  | ret =>
    simp only [run, perform, Signal.apply_stack, Signal.apply_pc]
    cases s.stack.pop? with
    | none => rfl
    | some found => cases e <;> rfl
  | call a =>
    simp only [run, perform, Signal.apply_stack, Signal.apply_pc]
    cases s.stack.push s.pc with
    | error f => rfl
    | ok stack => cases e <;> rfl
  | skipEqByte | skipNeByte | skipEq | skipNe =>
    simp only [run, perform, done, State.skipIf_eq]
    cases e <;> rfl
  | skipKeyDown x | skipKeyUp x =>
    simp only [run, perform, done, State.skipIf_eq]
    cases e with
    | press k | release k => simp [form, Signal.watchers] at apart
    | tickDelay | tickSound => rfl
  | waitKey x =>
    cases e with
    | press k | release k => simp [form, Signal.watchers] at apart
    | tickDelay | tickSound =>
      simp only [run, perform, Signal.apply]
      cases s.keypad.current <;> rfl
  | readDelay x | setDelay x =>
    cases e with
    | tickDelay => simp [form, Signal.watchers] at apart
    | press k | release k | tickSound => rfl
  | setSound x =>
    cases e with
    | tickSound => simp [form, Signal.watchers] at apart
    | press k | release k | tickDelay => rfl
  | _ => cases e <;> rfl

end Instruction

namespace Machine

theorem perform_signal (m : Machine) (e : Signal) :
    (m.perform e.operation).machine = { m with state := e.apply m.state } := by
  cases e <;> rfl

/-- An opcode that a signal does not concern is executed after it as before it, faults and messages
included. -/
theorem execute_after_signal {e : Signal} {op : Opcode} (apart : ¬ e.Concerns op) (m : Machine) :
    (m.perform e.operation).machine.execute op =
      ⟨((m.execute op).machine.perform e.operation).machine, (m.execute op).result,
        (m.execute op).log⟩ := by
  rw [Signal.concerns_iff] at apart
  have same := Instruction.run_apply apart { m.state with refused := false }
  rw [Signal.apply_withMark] at same
  rw [perform_signal, perform_signal]
  cases ran : (Instruction.decode op).run { m.state with refused := false } with
  | ok after =>
    rw [ran] at same
    rw [execute_of_run ran, execute_of_run (m := { m with state := e.apply m.state }) same]
  | error f =>
    rw [ran] at same
    simp only [execute, Instruction.perform_of_run_error same, Instruction.perform_of_run_error ran]
    split
    · cases e <;> rfl
    · cases e <;> rfl

/-- The host is told the same by a signal whether it comes before the opcode or after it. -/
theorem signal_after_execute {e : Signal} {op : Opcode} (apart : ¬ e.Concerns op) (m : Machine) :
    ((m.execute op).machine.perform e.operation).result = (m.perform e.operation).result := by
  rw [Signal.concerns_iff] at apart
  cases carried : m.state.carryOut m.config.strict op with
  | error f => rw [execute_of_error carried]
  | ok after =>
    have reach := Instruction.carryOut_reach carried
    rw [(execute_of_ok carried).1]
    cases e with
    | press k | release k => rfl
    | tickDelay =>
      have delay : after.delay = m.state.delay := by
        refine reach.delay.resolve_right fun sets => apart ?_
        simp [Signal.watchers, sets]
      exact congrArg (fun t : Timer => Answer.flag t.isActive) delay
    | tickSound =>
      have sound : after.sound = m.state.sound := by
        refine reach.sound.resolve_right fun sets => apart ?_
        simp [Signal.watchers, sets]
      exact congrArg (fun t : Timer => Answer.flag t.isActive) sound

/-- Whichever of the signal and the opcode comes first, the host is told the same of both, and the
machine is the same in the end. -/
structure Commutes (e : Signal) (op : Opcode) (m : Machine) : Prop where
  executed : ((m.perform e.operation).machine.execute op).result = (m.execute op).result
  signalled : ((m.execute op).machine.perform e.operation).result = (m.perform e.operation).result
  machine : ((m.perform e.operation).machine.execute op).machine =
    ((m.execute op).machine.perform e.operation).machine

theorem commutes_of_apart {e : Signal} {op : Opcode} (apart : ¬ e.Concerns op) (m : Machine) :
    Commutes e op m := by
  have same := execute_after_signal apart m
  constructor
  · rw [same]
  · exact signal_after_execute apart m
  · rw [same]

/-! ## Opcodes that look -/

/-- Instructions that look at a signal do not fail. -/
theorem exists_run_of_watches {i : Instruction} {e : Signal} (watches : i.form ∈ e.watchers)
    (s : State) : ∃ after, i.run s = .ok after := by
  cases ran : i.run s with
  | ok after => exact ⟨after, rfl⟩
  | error f =>
    rcases (Instruction.run_eq_error_iff i s f).mp ran with ⟨rfl, -⟩ | ⟨⟨a, rfl⟩, -⟩
    · cases e <;> simp [Instruction.form, Signal.watchers] at watches
    · cases e <;> simp [Instruction.form, Signal.watchers] at watches

/-- Where a signal and an opcode that looks at it commute, the opcode takes the state changed by the
signal to its own outcome changed by the signal. -/
theorem Commutes.run_apply {e : Signal} {op : Opcode} {m : Machine} (commutes : Commutes e op m)
    (watches : (Instruction.decode op).form ∈ e.watchers) :
    (Instruction.decode op).run (e.apply { m.state with refused := false }) =
      ((Instruction.decode op).run { m.state with refused := false }).map e.apply := by
  rw [Signal.apply_withMark]
  obtain ⟨first, before⟩ := exists_run_of_watches watches { m.state with refused := false }
  obtain ⟨second, after⟩ := exists_run_of_watches watches { e.apply m.state with refused := false }
  have executed := execute_of_run before
  have executed' := execute_of_run (m := { m with state := e.apply m.state }) after
  have same := commutes.machine
  rw [perform_signal, perform_signal, executed, executed'] at same
  rw [before, after]
  exact congrArg Except.ok (congrArg Machine.state same)

/-- Then it also goes on at the same place. -/
theorem next_eq_of_run_apply {i : Instruction} {e : Signal} {s : State} (start : s.pc = Rom.start)
    (watches : i.form ∈ e.watchers) (same : i.run (e.apply s) = (i.run s).map e.apply) :
    i.next (e.apply s) = i.next s := by
  have start' : (e.apply s).pc = Rom.start := (e.apply_pc s).trans start
  obtain ⟨first, before⟩ := exists_run_of_watches watches s
  obtain ⟨second, after⟩ := exists_run_of_watches watches (e.apply s)
  rw [before, after] at same
  obtain rfl : second = e.apply first := Except.ok.inj same
  have here := Instruction.run_pc before (by rw [start]; decide) (by rw [start]; decide)
  have there := Instruction.run_pc after (by rw [start']; decide) (by rw [start']; decide)
  rw [← here, ← there, Signal.apply_pc]

theorem ofLowDigit_index (k : Key) : Key.ofLowDigit k.index = k := by
  revert k
  decide

/-- A state with every register at `b`, and with the given keypad and timers. -/
def filled (config : Config) (b : UInt8) (p : Keypad) (delay sound : Timer) : State :=
  { State.initial config with
    registers := Vector.replicate 16 b, keypad := p, delay := delay, sound := sound }

theorem v_filled (config : Config) (b : UInt8) (p : Keypad) (delay sound : Timer) (r : Register) :
    (filled config b p delay sound).v r = b :=
  Vector.getElem_replicate r.isLt

/-- A key pressed on its own, and released again. -/
theorem press_release (k : Key) :
    let pressed := Keypad.released.press k
    pressed.isDown k = !Keypad.released.isDown k ∧
    (pressed.release k).isDown k = !pressed.isDown k ∧
    (pressed.release k).current.isNone = !pressed.current.isNone := by
  revert k
  decide

theorem ite_not_ne_ite (b : Bool) {there here : Int} (apart : there ≠ here) :
    (if !b then there else here) ≠ if b then there else here := by
  cases b
  · exact apart
  · exact apart.symm

/-- Two states in which different keys are down lead on to different places, where all registers
name the key that makes the difference. -/
theorem next_ne_of_keys {i : Instruction} {s t : State} {k : Key}
    (looks : i.form ∈ (Signal.press k).watchers) (pc : t.pc = s.pc)
    (named : ∀ r, s.v r = k.index ∧ t.v r = k.index)
    (down : t.keypad.isDown k = !s.keypad.isDown k)
    (current : t.keypad.current.isNone = !s.keypad.current.isNone) : i.next t ≠ i.next s := by
  cases i with
  | skipKeyDown x | skipKeyUp x =>
    simp only [Instruction.next, Instruction.skips, named x, ofLowDigit_index, down, pc]
    exact ite_not_ne_ite _ (by omega)
  | waitKey x =>
    simp only [Instruction.next, current, pc]
    exact ite_not_ne_ite _ (by omega)
  | _ => simp [Instruction.form, Signal.watchers] at looks

/-- Under any settings there is a machine on which a signal and an opcode that looks at it do not
commute. -/
theorem exists_not_commutes (config : Config) {e : Signal} {op : Opcode}
    (concerns : e.Concerns op) : ∃ m : Machine, m.config = config ∧ ¬ Commutes e op m := by
  have watches := (Signal.concerns_iff e op).mp concerns
  cases e with
  | press k =>
    let s := filled config k.index .released .stopped .stopped
    refine ⟨⟨config, s, [], []⟩, rfl, fun commutes => ?_⟩
    have same := next_eq_of_run_apply (s := s) rfl watches (commutes.run_apply watches)
    have named (r : Register) := v_filled config k.index .released .stopped .stopped r
    refine absurd same (next_ne_of_keys watches rfl (fun r => ⟨named r, named r⟩) ?_ rfl)
    exact (press_release k).1
  | release k =>
    let s := filled config k.index (Keypad.released.press k) .stopped .stopped
    refine ⟨⟨config, s, [], []⟩, rfl, fun commutes => ?_⟩
    have same := next_eq_of_run_apply (s := s) rfl watches (commutes.run_apply watches)
    have named (r : Register) := v_filled config k.index (Keypad.released.press k) .stopped .stopped r
    refine absurd same (next_ne_of_keys (k := k) watches rfl (fun r => ⟨named r, named r⟩) ?_ ?_)
    · exact (press_release k).2.1
    · exact (press_release k).2.2
  | tickDelay =>
    let s := filled config 1 .released ⟨1⟩ .stopped
    refine ⟨⟨config, s, [], []⟩, rfl, fun commutes => ?_⟩
    have same := commutes.run_apply watches
    generalize Instruction.decode op = i at watches same
    cases i with
    | readDelay x =>
      have read := congrArg (State.v · x) (Except.ok.inj same)
      change ((Signal.tickDelay.apply s).setV x (Timer.tick ⟨1⟩).value).v x = (s.setV x 1).v x at read
      rw [State.v_setV, State.v_setV, if_pos rfl, if_pos rfl] at read
      exact absurd read (by decide)
    | setDelay x =>
      have set : (⟨s.v x⟩ : Timer) = Timer.tick ⟨s.v x⟩ :=
        congrArg State.delay (Except.ok.inj same)
      rw [v_filled] at set
      exact absurd set (by decide)
    | _ => simp [Instruction.form, Signal.watchers] at watches
  | tickSound =>
    let s := filled config 1 .released .stopped ⟨1⟩
    refine ⟨⟨config, s, [], []⟩, rfl, fun commutes => ?_⟩
    have same := commutes.run_apply watches
    generalize Instruction.decode op = i at watches same
    cases i with
    | setSound x =>
      have set : (⟨s.v x⟩ : Timer) = Timer.tick ⟨s.v x⟩ :=
        congrArg State.sound (Except.ok.inj same)
      rw [v_filled] at set
      exact absurd set (by decide)
    | _ => simp [Instruction.form, Signal.watchers] at watches

/-! ## Lists of opcodes -/

section Executions

variable {e : Signal} {codes : List Opcode} (apart : ∀ op ∈ codes, ¬ e.Concerns op)

include apart

/-- Opcodes that a signal does not concern are all executed after it as before it. -/
theorem executions_after_signal (m : Machine) :
    (m.perform e.operation).machine.answers (codes.map .execute) = m.answers (codes.map .execute) ∧
    (m.perform e.operation).machine.performAll (codes.map .execute) =
      ((m.performAll (codes.map .execute)).perform e.operation).machine := by
  induction codes generalizing m with
  | nil => exact ⟨rfl, rfl⟩
  | cons op codes ih =>
    have performed : (m.perform e.operation).machine.perform (.execute op) =
        ⟨((m.perform (.execute op)).machine.perform e.operation).machine,
          (m.perform (.execute op)).result, (m.perform (.execute op)).log⟩ :=
      congrArg (Outcome.map Answer.executed) (execute_after_signal (apart op List.mem_cons_self) m)
    obtain ⟨answers, machine⟩ :=
      ih (fun op mem => apart op (List.mem_cons_of_mem _ mem)) (m.perform (.execute op)).machine
    rw [List.map_cons, answers_cons, answers_cons, performAll_cons, performAll_cons, performed]
    exact ⟨congrArg _ answers, machine⟩

/-- A signal may come anywhere among opcodes that it does not concern: the machine is the same in
the end, and each of the operations is answered as if it came by itself. -/
theorem insert_signal (m : Machine) {i : Nat} (within : i ≤ codes.length) :
    m.answers ((codes.map Operation.execute).insertIdx i e.operation) =
      (m.answers (codes.map .execute)).insertIdx i (m.perform e.operation).result ∧
    m.performAll ((codes.map Operation.execute).insertIdx i e.operation) =
      ((m.performAll (codes.map .execute)).perform e.operation).machine := by
  induction codes generalizing m i with
  | nil =>
    obtain rfl := Nat.le_zero.mp within
    exact ⟨rfl, rfl⟩
  | cons op codes ih =>
    cases i with
    | zero =>
      obtain ⟨answers, machine⟩ := executions_after_signal apart m
      rw [List.insertIdx_zero, List.insertIdx_zero, answers_cons, performAll_cons]
      exact ⟨congrArg _ answers, machine⟩
    | succ i =>
      have answer : ((m.perform (.execute op)).machine.perform e.operation).result =
          (m.perform e.operation).result := signal_after_execute (apart op List.mem_cons_self) m
      obtain ⟨answers, machine⟩ :=
        ih (fun op mem => apart op (List.mem_cons_of_mem _ mem)) (m.perform (.execute op)).machine
          (Nat.le_of_succ_le_succ within)
      rw [answer] at answers
      rw [List.map_cons, List.insertIdx_succ_cons, answers_cons, answers_cons,
        List.insertIdx_succ_cons, performAll_cons, performAll_cons]
      exact ⟨congrArg _ answers, machine⟩

end Executions

/-- A signal commutes with an opcode on every machine, under given settings, exactly if the opcode
does not fit the pattern of a form that looks at what the signal moves. So, wherever a signal is put
among opcodes none of which does, all that is executed gives the same results as without it, the
signal is answered the same, and the machine in the end is the one on which the signal comes last.
-/
theorem signals_commute (e : Signal) :
    (∀ (config : Config) (op : Opcode),
      (∀ m : Machine, m.config = config → Commutes e op m) ↔ ¬ e.Concerns op) ∧
    ∀ (m : Machine) (codes : List Opcode), (∀ op ∈ codes, ¬ e.Concerns op) →
      ∀ i ≤ codes.length,
        let executions := codes.map Operation.execute
        m.answers (executions.insertIdx i e.operation) =
          (m.answers executions).insertIdx i (m.perform e.operation).result ∧
        m.performAll (executions.insertIdx i e.operation) =
          ((m.performAll executions).perform e.operation).machine := by
  constructor
  · intro config op
    constructor
    · intro commutes concerns
      obtain ⟨m, settings, fails⟩ := exists_not_commutes config concerns
      exact fails (commutes m settings)
    · intro apart m settings
      exact commutes_of_apart apart m
  · intro m codes apart i within
    exact insert_signal apart m within

end Machine

end ChipEight
