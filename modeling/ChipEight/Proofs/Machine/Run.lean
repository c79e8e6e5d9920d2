import ChipEight.Machine.Operation
import ChipEight.Proofs.Machine.Remembering
/-!
# Runs

A run is a machine and the operations done to it. A frame is taken apart into its steps and ticks
(`primitives`), so that what every `Change` keeps is kept by every run (`performAll_keeps`). Notes that
an observer takes beside a run are an `observe`; `observe_keeps` is the same induction for what holds
between the notes and the machine.
-/
namespace ChipEight.Machine

/-- A new machine with the given source of random bytes, be it the seed's or drawn by chance. -/
def newWith (config : Config) (random : Random.Stream) : Machine :=
  ⟨config, { State.initial config with random := random }, [], []⟩

theorem new_eq_newWith (config : Config) (chance : Random.Stream) :
    new config chance = newWith config (config.source chance) := rfl

@[simp] theorem performAll_nil (m : Machine) : m.performAll [] = m := rfl

@[simp] theorem performAll_cons (m : Machine) (op : Operation) (ops : List Operation) :
    m.performAll (op :: ops) = (m.perform op).machine.performAll ops := rfl

theorem performAll_append (m : Machine) (ops more : List Operation) :
    m.performAll (ops ++ more) = (m.performAll ops).performAll more :=
  List.foldl_append

/-- A property that each of the operations keeps is kept by all of them. -/
theorem performAll_keeps_of_mem {P : Machine → Prop} {ops : List Operation}
    (keep : ∀ m, ∀ op ∈ ops, P m → P (m.perform op).machine) {m : Machine} (start : P m) :
    P (m.performAll ops) := by
  induction ops generalizing m with
  | nil => exact start
  | cons op ops ih =>
    exact ih (fun m next mem => keep m next (List.mem_cons_of_mem op mem))
      (keep m op List.mem_cons_self start)

/-! ## The parts of a frame -/

/-- The steps that a frame of `count` instructions takes: up to and with the first that fails. -/
def attempts (m : Machine) : Nat → List Operation
  | 0 => []
  | count + 1 =>
    match m.step.result with
    | .ok _ => .step :: attempts m.step.machine count
    | .error _ => [.step]

/-- The timers counted down `count` times. -/
def ticking (count : Nat) : List Operation :=
  (List.replicate count [.tickDelay, .tickSound]).flatten

/-- An operation as operations that are no frames. -/
def parts (m : Machine) : Operation → List Operation
  | .runFrame =>
    m.attempts m.config.instructionsPerFrame ++
      match (m.steps m.config.instructionsPerFrame).result with
      | .ok _ => ticking (min m.config.timerTicksPerFrame 255)
      | .error _ => []
  | op => [op]

/-- A run with each frame taken apart. -/
def primitives (m : Machine) : List Operation → List Operation
  | [] => []
  | op :: ops => m.parts op ++ (m.perform op).machine.primitives ops

theorem attempts_succ_of_ok {m : Machine} {op : Opcode} (done : m.step.result = .ok op)
    (count : Nat) : m.attempts (count + 1) = .step :: m.step.machine.attempts count := by
  rw [attempts, done]

theorem stepsAfter_succ_of_ok {m : Machine} {op : Opcode} (done : m.step.result = .ok op)
    (count taken : Nat) (logged : List Event) :
    stepsAfter taken logged m (count + 1) =
      stepsAfter (taken + 1) (m.step.log.reverse ++ logged) m.step.machine count := by
  simp only [stepsAfter, done]

theorem stepsAfter_succ_of_error {m : Machine} {f : Fault} (failed : m.step.result = .error f)
    (count taken : Nat) (logged : List Event) :
    stepsAfter taken logged m (count + 1) =
      ⟨m.step.machine, .error f, (m.step.log.reverse ++ logged).reverse⟩ := by
  simp only [stepsAfter, failed]

/-- Steps that all succeed are counted one by one. -/
theorem stepsAfter_taken {m : Machine} {count taken all : Nat} {logged : List Event}
    (done : (stepsAfter taken logged m count).result = .ok all) : all = taken + count := by
  induction count generalizing m taken logged with
  | zero => exact (Except.ok.inj done).symm
  | succ count ih =>
    cases first : m.step.result with
    | error f =>
      rw [stepsAfter_succ_of_error first] at done
      cases done
    | ok op =>
      rw [stepsAfter_succ_of_ok first] at done
      rw [ih done]
      omega

theorem steps_taken {m : Machine} {count all : Nat} (done : (m.steps count).result = .ok all) :
    all = count :=
  (stepsAfter_taken done).trans (Nat.zero_add count)

theorem performAll_attempts (m : Machine) (count taken : Nat) (logged : List Event) :
    m.performAll (m.attempts count) = (stepsAfter taken logged m count).machine := by
  -- Neither the count nor the log plays a part in the machine, but both grow from step to step.
  induction count generalizing m taken logged with
  | zero => rfl
  | succ count ih =>
    cases done : m.step.result with
    | error f =>
      rw [stepsAfter_succ_of_error done, attempts, done]
      rfl
    | ok op =>
      rw [stepsAfter_succ_of_ok done, attempts_succ_of_ok done, ← ih m.step.machine]
      rfl

theorem performAll_ticking (m : Machine) (count : Nat) :
    m.performAll (ticking count) = (m.ticks count).1 := by
  induction count generalizing m with
  | zero => rfl
  | succ count ih => exact ih m.tickDelay.machine.tickSound.machine

/-- A frame whose steps succeed goes on to its ticks. -/
theorem runFrame_machine_of_ok {m : Machine} {executed : Nat}
    (done : (m.steps m.config.instructionsPerFrame).result = .ok executed) :
    m.runFrame.machine = ((m.steps m.config.instructionsPerFrame).machine.ticks
      (min m.config.timerTicksPerFrame 255)).1 := by
  simp only [runFrame, done]

/-- It has executed all of its instructions then. -/
theorem runFrame_result_of_ok {m : Machine} {executed : Nat}
    (done : (m.steps m.config.instructionsPerFrame).result = .ok executed) :
    m.runFrame.result = .ok ⟨m.config.instructionsPerFrame,
      m.runFrame.machine.state.sound.isActive,
      ((m.steps m.config.instructionsPerFrame).machine.ticks
        (min m.config.timerTicksPerFrame 255)).2⟩ := by
  have all := steps_taken done
  subst all
  simp only [runFrame, done]

theorem runFrame_of_error {m : Machine} {f : Fault}
    (failed : (m.steps m.config.instructionsPerFrame).result = .error f) :
    m.runFrame.machine = (m.steps m.config.instructionsPerFrame).machine ∧
      m.runFrame.result = .error f := by
  simp only [runFrame, failed, and_self]

theorem performAll_parts (m : Machine) (op : Operation) :
    m.performAll (m.parts op) = (m.perform op).machine := by
  cases op with
  | runFrame =>
    have stepped : m.performAll (m.attempts m.config.instructionsPerFrame) =
        (m.steps m.config.instructionsPerFrame).machine := performAll_attempts m _ 0 []
    change m.performAll (m.parts .runFrame) = m.runFrame.machine
    rw [parts, performAll_append, stepped]
    cases done : (m.steps m.config.instructionsPerFrame).result with
    | error f => exact (runFrame_of_error done).1.symm
    | ok _ => rw [runFrame_machine_of_ok done, performAll_ticking]
  | _ => rfl

theorem performAll_primitives (m : Machine) (ops : List Operation) :
    m.performAll (m.primitives ops) = m.performAll ops := by
  induction ops generalizing m with
  | nil => rfl
  | cons op ops ih =>
    rw [primitives, performAll_append, performAll_parts, ih]
    rfl

theorem primitives_append (m : Machine) (ops more : List Operation) :
    m.primitives (ops ++ more) = m.primitives ops ++ (m.performAll ops).primitives more := by
  induction ops generalizing m with
  | nil => rfl
  | cons op ops ih =>
    rw [List.cons_append, primitives, primitives, ih, List.append_assoc, performAll_cons]

theorem mem_attempts {m : Machine} {count : Nat} {op : Operation} (h : op ∈ m.attempts count) :
    op = .step := by
  induction count generalizing m with
  | zero => cases h
  | succ count ih =>
    unfold attempts at h
    split at h
    · rcases List.mem_cons.mp h with first | later
      · exact first
      · exact ih later
    · exact List.mem_singleton.mp h

theorem mem_ticking {count : Nat} {op : Operation} (h : op ∈ ticking count) :
    op = .tickDelay ∨ op = .tickSound := by
  obtain ⟨pair, repeated, inside⟩ := List.mem_flatten.mp h
  rw [List.eq_of_mem_replicate repeated] at inside
  simpa using inside

/-- Taking frames apart brings in steps and ticks only, and leaves no frame. -/
theorem mem_primitives {m : Machine} {ops : List Operation} {op : Operation}
    (h : op ∈ m.primitives ops) :
    op ≠ .runFrame ∧ (op ∈ ops ∨ op = .step ∨ op = .tickDelay ∨ op = .tickSound) := by
  induction ops generalizing m with
  | nil => cases h
  | cons first ops ih =>
    rcases List.mem_append.mp h with here | later
    · by_cases frame : first = .runFrame
      · subst frame
        rcases List.mem_append.mp here with stepped | ticked
        · rw [mem_attempts stepped]
          simp
        · split at ticked
          · rcases mem_ticking ticked with rfl | rfl <;> simp
          · cases ticked
      · have single : m.parts first = [first] := by
          cases first <;> first | rfl | exact absurd rfl frame
        rw [single, List.mem_singleton] at here
        subst here
        exact ⟨frame, Or.inl List.mem_cons_self⟩
    · obtain ⟨noFrame, origin⟩ := ih later
      exact ⟨noFrame, origin.imp_left (List.mem_cons_of_mem first)⟩

/-- Frames have no rewinds in them. -/
theorem rewind_notMem_primitives {m : Machine} {ops : List Operation} (noRewind : .rewind ∉ ops) :
    .rewind ∉ m.primitives ops := by
  intro mem
  simpa [noRewind] using (mem_primitives mem).2

/-- What the changes that a run can bring about keep is kept by the run. -/
theorem performAll_keeps_of_part {P : Machine → Prop} {ops : List Operation}
    (keep : ∀ {m op after}, Change m op after →
      (op ∈ ops ∨ op = .step ∨ op = .tickDelay ∨ op = .tickSound) → P m → P after)
    {m : Machine} (start : P m) : P (m.performAll ops) := by
  rw [← performAll_primitives]
  refine performAll_keeps_of_mem (fun m op mem => ?_) start
  obtain ⟨noFrame, origin⟩ := mem_primitives mem
  exact keep (change_of_perform m noFrame) origin

/-- What every change keeps is kept by every run. -/
theorem performAll_keeps {P : Machine → Prop}
    (keep : ∀ {m op after}, Change m op after → P m → P after) {m : Machine} (start : P m)
    (ops : List Operation) : P (m.performAll ops) :=
  performAll_keeps_of_part (fun change _ => keep change) start

/-- A run never changes the settings. -/
theorem performAll_config (m : Machine) (ops : List Operation) :
    (m.performAll ops).config = m.config :=
  performAll_keeps (P := fun reached => reached.config = m.config)
    (fun change same => by cases change <;> exact same) rfl ops

theorem Bounded.performAll {m : Machine} (bounded : Bounded m) (ops : List Operation) :
    Bounded (m.performAll ops) :=
  performAll_keeps Bounded.change bounded ops

theorem bounded_newWith (config : Config) (random : Random.Stream) :
    Bounded (newWith config random) :=
  ⟨Nat.zero_le _, Nat.zero_le _⟩

/-! ## Remembered states -/

/-- A property of the state and of all those that rewinds can go back to. -/
def Everywhere (P : State → Prop) (m : Machine) : Prop :=
  P m.state ∧ ∀ before ∈ m.history, P before

/-- A rewind needs no attention: what comes back had the property when it was remembered. -/
theorem Everywhere.change {P : State → Prop} {m after : Machine} {op : Operation}
    (change : Change m op after) (keep : op ≠ .rewind → P m.state → P after.state)
    (here : Everywhere P m) : Everywhere P after := by
  obtain ⟨now, remembered⟩ := here
  cases change with
  | load rom memory => exact ⟨keep nofun now, nofun⟩
  | stepped fetched carried result =>
    refine ⟨keep nofun now, ?_⟩
    intro before mem
    rcases mem_of_mem_save mem with rfl | older
    · exact now
    · exact remembered before older
  | rewound history =>
    rw [history] at remembered
    exact ⟨remembered _ List.mem_cons_self,
      fun before mem => remembered before (List.mem_cons_of_mem _ mem)⟩
  | unwound history => exact ⟨now, remembered⟩
  | _ => exact ⟨keep nofun now, remembered⟩

theorem Everywhere.imp {P Q : State → Prop} {m : Machine} (weaken : ∀ s, P s → Q s)
    (here : Everywhere P m) : Everywhere Q m :=
  ⟨weaken _ here.1, fun before mem => weaken _ (here.2 before mem)⟩

theorem Everywhere.and {P Q : State → Prop} {m : Machine} (p : Everywhere P m)
    (q : Everywhere Q m) : Everywhere (fun s => P s ∧ Q s) m :=
  ⟨⟨p.1, q.1⟩, fun before mem => ⟨p.2 before mem, q.2 before mem⟩⟩

theorem performAll_everywhere {P : State → Prop}
    (keep : ∀ {m op after}, Change m op after → op ≠ .rewind → P m.state → P after.state)
    {m : Machine} (start : Everywhere P m) (ops : List Operation) :
    Everywhere P (m.performAll ops) :=
  performAll_keeps (fun change here => here.change change (keep change)) start ops

/-! ## Notes beside a run -/

section Notes

variable {γ : Type} (note : γ → Machine → Operation → γ)

/-- What an observer has written down after a list of operations: `note` adds to the notes before an
operation, from the machine that it meets. -/
def record (g : γ) (m : Machine) : List Operation → γ
  | [] => g
  | op :: ops => record (note g m op) (m.perform op).machine ops

/-- The notes on a run, taken at each step and tick of its frames. -/
def observe (g : γ) (m : Machine) (ops : List Operation) : γ := record note g m (m.primitives ops)

theorem record_append (g : γ) (m : Machine) (ops more : List Operation) :
    record note g m (ops ++ more) =
      record note (record note g m ops) (m.performAll ops) more := by
  induction ops generalizing g m with
  | nil => rfl
  | cons op ops ih => exact ih (note g m op) (m.perform op).machine

theorem observe_append (g : γ) (m : Machine) (ops more : List Operation) :
    observe note g m (ops ++ more) =
      observe note (observe note g m ops) (m.performAll ops) more := by
  unfold observe
  rw [primitives_append, record_append, performAll_primitives]

variable {note}

/-- What holds between notes and machine, and again after each operation in a list, holds after the
list. -/
theorem record_keeps_of_mem {I : γ → Machine → Prop} {ops : List Operation}
    (keep : ∀ g m, ∀ op ∈ ops, I g m → I (note g m op) (m.perform op).machine)
    {g : γ} {m : Machine} (start : I g m) : I (record note g m ops) (m.performAll ops) := by
  induction ops generalizing g m with
  | nil => exact start
  | cons op ops ih =>
    exact ih (fun g m next mem => keep g m next (List.mem_cons_of_mem op mem))
      (keep g m op List.mem_cons_self start)

/-- What every change keeps between notes and machine holds after every run. -/
theorem observe_keeps {I : γ → Machine → Prop}
    (keep : ∀ {g m op after}, Change m op after → I g m → I (note g m op) after)
    {g : γ} {m : Machine} (start : I g m) (ops : List Operation) :
    I (observe note g m ops) (m.performAll ops) := by
  rw [← performAll_primitives]
  exact record_keeps_of_mem
    (fun _ m _ mem => keep (change_of_perform m (mem_primitives mem).1)) start

end Notes

end ChipEight.Machine
