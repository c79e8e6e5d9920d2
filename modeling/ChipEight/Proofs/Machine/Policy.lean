import ChipEight.Proofs.Machine.Mirror
import ChipEight.Proofs.Machine.Subroutine
/-!
# Fault policies

Until the call stack of a strict machine faults, neither its policy nor its limit matters: a machine
with room for more calls, strict or not, does the same. The limit is part of the state and so of all
that is remembered, which is why the two are compared with the higher limit put in everywhere.
-/
namespace ChipEight

/-- The stack with another limit. -/
def CallStack.withLimit (limit : Nat) (t : CallStack) : CallStack := { t with limit := limit }

/-- Faults of the call stack. The other one is a program counter that has left memory. -/
def Fault.ofStack : Fault → Bool
  | stackUnderflow _ | stackOverflow _ _ => true
  | pcOutOfBounds _ => false

/-- An instruction that finds room on the stack, or needs none, does the same under a higher limit. -/
theorem Instruction.run_withLimit {i : Instruction} {s after : State} {limit : Nat}
    (ran : i.run s = .ok after) (higher : s.stack.limit ≤ limit) :
    i.run (s.mapStack (.withLimit limit)) = .ok (after.mapStack (.withLimit limit)) := by
  cases i with
  | ret =>
    obtain ⟨back, rest, frames, rfl⟩ := (run_ret_eq_ok_iff s after).mp ran
    exact (run_ret_eq_ok_iff _ _).mpr ⟨back, rest, frames, rfl⟩
  | call a =>
    obtain ⟨room, rfl⟩ := (run_call_eq_ok_iff a s after).mp ran
    exact (run_call_eq_ok_iff a _ _).mpr ⟨Nat.lt_of_lt_of_le room higher, rfl⟩
  | waitKey x =>
    refine (run_waitKey_eq_ok_iff x _ _).mpr ?_
    rcases (run_waitKey_eq_ok_iff x s after).mp ran with ⟨k, key, rfl⟩ | ⟨key, rfl⟩
    · exact Or.inl ⟨k, key, rfl⟩
    · exact Or.inr ⟨key, rfl⟩
  | _ =>
    simp only [run, perform, done, State.skipIf_eq, Except.ok.injEq] at ran ⊢
    subst ran
    rfl

namespace State

/-- What succeeds on a strict machine succeeds under either policy where there is more room. -/
theorem carryOut_withLimit {s after : State} {op : Opcode} {limit : Nat} (policy : Bool)
    (carried : s.carryOut true op = .ok after) (higher : s.stack.limit ≤ limit) :
    (s.mapStack (.withLimit limit)).carryOut policy op = .ok (after.mapStack (.withLimit limit)) := by
  rcases carryOut_ok carried with ran | ⟨lenient, -⟩
  · have again : (Instruction.decode op).run
        (mapStack (.withLimit limit) { s with refused := false }) = _ :=
      Instruction.run_withLimit ran higher
    exact carryOut_of_run again policy
  · cases lenient

/-- Opcodes cause no other faults than those of the stack. -/
theorem ofStack_of_carryOut {s : State} {strict : Bool} {op : Opcode} {f : Fault}
    (faulted : s.carryOut strict op = .error f) : f.ofStack = true := by
  obtain ⟨-, ⟨-, -, rfl⟩ | ⟨-, -, rfl⟩⟩ := (carryOut_eq_error_iff strict op s f).mp faulted
  · rfl
  · rfl

end State

namespace Machine

/-- `n` mirrors the strict machine `m` with more room for calls and under either policy. -/
structure Roomier (config : Config) (policy : Bool) (limit : Nat) (m n : Machine) : Prop where
  mirrors : Mirrors (.withLimit limit)
    (fun older older' => older' = older.map (State.mapStack (.withLimit limit))) m n
  scarce : m.config = config
  ample : n.config = { config with strict := policy, maxStackDepth := limit }
  within : Everywhere
    (fun s => s.stack.limit = config.maxStackDepth ∧ s.stack.depth ≤ config.maxStackDepth) m

theorem Roomier.faithful {config : Config} {policy : Bool} {limit : Nat} {m n : Machine}
    (roomier : Roomier config policy limit m n) (strict : config.strict = true)
    (higher : config.maxStackDepth ≤ limit) :
    Faithful (.withLimit limit)
      (fun older older' => older' = older.map (State.mapStack (.withLimit limit)))
      (fun f => f.ofStack = false) m n where
  carried {s after op} stack done := by
    have below : s.stack.limit ≤ limit := by rw [stack, roomier.within.1.1]; exact higher
    rw [roomier.scarce, strict] at done
    exact State.carryOut_withLimit _ done below
  faulted {s op f} failed fine := by
    rw [State.ofStack_of_carryOut failed] at fine
    cases fine
  forgotten := rfl
  remembered s aligned := by
    rw [aligned, roomier.scarce, roomier.ample, map_save]
  undone {s older all} aligned := ⟨_, aligned, rfl⟩

theorem lockstep_roomier {config : Config} (strict : config.strict = true) (policy : Bool)
    {limit : Nat} (higher : config.maxStackDepth ≤ limit) :
    Lockstep (Roomier config policy limit)
      (fun _ answer => ∀ f, answer.fault? = some f → f.ofStack = false) where
  cadence {m n} roomier := by
    rw [roomier.scarce, roomier.ample]
    exact ⟨rfl, rfl⟩
  single {m n} op roomier noFrame fine := by
    have change := change_of_perform m noFrame
    have empty : op = .rewind → m.rewind.result = false → n.history = [] := by
      rintro - failed
      rw [roomier.mirrors.history]
      cases history : m.history with
      | nil => rfl
      | cons before older =>
        rw [(rewind_of_cons history).2] at failed
        cases failed
    obtain ⟨result, mirrors⟩ :=
      roomier.mirrors.single (roomier.faithful strict higher) noFrame fine empty
    exact ⟨result, mirrors, (performAll_config m [op]).trans roomier.scarce,
      (performAll_config n [op]).trans roomier.ample,
      roomier.within.change change fun noRewind => (change.move noRewind).within⟩
  stepped op := nofun
  ticked running := ⟨nofun, nofun⟩
  failed fine := fine

/-- Two new machines with the same random bytes, the one strict, the other with no less room for calls
and strict or not, give the same answers in every run in which no operation on the first reports a fault
of the call stack. After each operation they then agree in all but the limits of their stacks: in their
states, in what they remember and in their past opcodes. -/
theorem policy_unobservable_before_fault (config : Config) (random : Random.Stream) (policy : Bool)
    (limit : Nat) (strict : config.strict = true) (higher : config.maxStackDepth ≤ limit)
    (ops : List Operation)
    (sound : ∀ answer ∈ (newWith config random).answers ops,
      ∀ f, answer.fault? = some f → f.ofStack = false) :
    let scarce := newWith config random
    let ample := newWith { config with strict := policy, maxStackDepth := limit } random
    ample.answers ops = scarce.answers ops ∧
    ∀ front, front <+: ops →
      (ample.performAll front).state =
        (scarce.performAll front).state.mapStack (.withLimit limit) ∧
      (ample.performAll front).history =
        (scarce.performAll front).history.map (State.mapStack (.withLimit limit)) ∧
      (ample.performAll front).past = (scarce.performAll front).past := by
  intro scarce ample
  have start : Roomier config policy limit scarce ample :=
    ⟨⟨rfl, rfl, rfl⟩, rfl, rfl, ⟨rfl, Nat.zero_le _⟩, nofun⟩
  obtain ⟨answers, later⟩ := (lockstep_roomier strict policy higher).answers start
    fun told mem => sound told.2 (List.of_mem_zip mem).2
  refine ⟨answers, fun front initial => ?_⟩
  have mirrors := (later front initial).mirrors
  exact ⟨mirrors.state, mirrors.history, mirrors.past⟩

/-- A call fills the stack and leads to the last byte, where no opcode starts. -/
private theorem answers_call_last {m : Machine} (room : m.state.stack.depth < m.state.stack.limit) :
    m.answers [.execute 0x2FFF, .step] =
      [.executed (.ok ()), .opcode (.error (.pcOutOfBounds 0xFFF))] := by
  have decoded : Instruction.decode 0x2FFF = .call 0xFFF := by decide
  have carried : m.state.carryOut m.config.strict 0x2FFF = .ok
      { m.state with
        pc := 0xFFF, refused := false
        stack := { m.state.stack with frames := m.state.pc :: m.state.stack.frames } } := by
    refine State.carryOut_of_run ?_ _
    rw [decoded]
    exact (Instruction.run_call_eq_ok_iff 0xFFF _ _).mpr ⟨room, rfl⟩
  obtain ⟨reached, done⟩ := execute_of_ok carried
  have ended : (m.execute 0x2FFF).machine.peek (m.execute 0x2FFF).machine.state.pc = none := by
    rw [reached, peek_eq_none_iff]
    exact Nat.le_refl 4096
  have stopped := (step_of_none ended).2
  rw [reached] at stopped
  rw [answers_cons, answers_cons]
  simp only [perform, Outcome.map, done, reached, stopped]
  rfl

/-- At its limit the stack of the strict machine is still like the other, and a step out of memory fails
on both. -/
theorem policy_unobservable_at_limit :
    let config := { Config.standard with strict := true, maxStackDepth := 1 }
    let scarce := newWith config (.ofSeed 0)
    let ample := newWith { config with strict := false, maxStackDepth := 16 } (.ofSeed 0)
    let ops : List Operation := [.execute 0x2FFF, .step]
    (∀ answer ∈ scarce.answers ops, ∀ f, answer.fault? = some f → f.ofStack = false) ∧
    ample.answers ops = [.executed (.ok ()), .opcode (.error (.pcOutOfBounds 0xFFF))] := by
  intro config scarce ample ops
  have told : scarce.answers ops = _ := answers_call_last (m := scarce) Nat.one_pos
  have sound : ∀ answer ∈ scarce.answers ops, ∀ f, answer.fault? = some f → f.ofStack = false := by
    rw [told]
    simp [Answer.fault?, Fault.ofStack]
  refine ⟨sound, ?_⟩
  rw [(policy_unobservable_before_fault config (.ofSeed 0) false 16 rfl (by decide) ops sound).1]
  exact told

end Machine

end ChipEight
