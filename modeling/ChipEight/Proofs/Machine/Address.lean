import ChipEight.Proofs.Instruction.Address
import ChipEight.Proofs.Machine.Subroutine
/-!
# Addresses of a machine

How far the addresses in a state can go. An opcode is only fetched inside memory, so that a step never
makes the program counter wrap, whatever state it starts from (`step_exact`). What a step leaves is
bounded by what it may go to: the return addresses, which were program counters themselves, and the
largest sum of a literal and a byte. Only an execution without a fetch can leave that range, and it
leaves the address register and the depth of the stack within theirs (`addresses_in_range`).
-/
namespace ChipEight

/-- The address that a fault is reported at. -/
def Fault.address : Fault → UInt16
  | stackUnderflow site | stackOverflow site _ => site
  | pcOutOfBounds pc => pc

namespace State

/-- The program counter and all that a return can set it to. -/
structure CounterInRange (s : State) : Prop where
  pc : s.pc.toNat ≤ 0x10FE
  frames : ∀ back ∈ s.stack.frames, 0x002 ≤ back.toNat ∧ back.toNat ≤ 0x1000

/-- All addresses in a state, under a bound on the depth of the stack. -/
structure InRange (limit : Nat) (s : State) : Prop extends CounterInRange s where
  index : s.index.toNat ≤ 0xFFF
  depth : s.stack.depth ≤ limit

theorem carryOut_pc {strict : Bool} {op : Opcode} {s after : State}
    (carried : s.carryOut strict op = .ok after) (low : 2 ≤ s.pc.toNat)
    (high : s.pc.toNat + 2 < 65536) :
    (after.pc.toNat : Int) =
      if after.refused then (s.pc.toNat : Int) else (Instruction.decode op).next s := by
  rcases carryOut_ok carried with ran | ⟨-, rfl, -⟩
  · have went := Instruction.run_pc ran low high
    have mark := Instruction.run_refused ran
    rw [Bool.or_false] at mark
    rw [went, mark]
    cases refused : (Instruction.decode op).form.isRefused with
    | true =>
      have stays := Instruction.run_of_isRefused refused { s with refused := false }
      rw [stays, Except.ok.injEq] at ran
      rw [← went, ← ran, if_pos rfl]
    | false =>
      rw [if_neg Bool.false_ne_true]
      cases Instruction.decode op <;> rfl
  · rfl

theorem carryOut_index {strict : Bool} {op : Opcode} {s after : State}
    (carried : s.carryOut strict op = .ok after) (here : s.index.toNat ≤ 0xFFF) :
    after.index.toNat ≤ 0xFFF := by
  rcases carryOut_ok carried with ran | ⟨-, rfl, -⟩
  · rcases Instruction.run_index ran with same | inside
    · rw [same]
      exact here
    · exact inside
  · exact here

/-- Carried out from inside memory, an opcode leaves the program counter in range and calls put only
such addresses on the stack as lie behind an opcode. -/
theorem CounterInRange.carryOut {strict : Bool} {op : Opcode} {s after : State}
    (carried : s.carryOut strict op = .ok after) (low : 0x002 ≤ s.pc.toNat)
    (high : s.pc.toNat ≤ 0x1000)
    (frames : ∀ back ∈ s.stack.frames, 0x002 ≤ back.toNat ∧ back.toNat ≤ 0x1000) :
    CounterInRange after where
  pc := by
    have went := carryOut_pc carried low (by omega)
    have bound := Instruction.next_le (i := Instruction.decode op) high
      fun back mem => (frames back mem).2
    split at went <;> omega
  frames := by
    rcases carryOut_stack carried with same | ⟨-, -, pushed⟩ | ⟨-, popped⟩
    · rw [same]
      exact frames
    · rw [pushed]
      intro back mem
      rcases List.mem_cons.mp mem with rfl | older
      · exact ⟨low, high⟩
      · exact frames back older
    · rw [popped] at frames
      exact fun back mem => frames back (List.mem_cons_of_mem _ mem)

end State

namespace Machine

/-! ## One step -/

/-- Past an opcode, the program counter lies behind it. -/
theorem advance_pc {m : Machine} {op : Opcode} (fetched : m.peek m.state.pc = some op) :
    m.advance.state.pc.toNat = m.state.pc.toNat + 2 ∧ m.state.pc.toNat + 2 ≤ 0x1000 := by
  have inside := lt_of_peek fetched
  have sum : m.advance.state.pc.toNat = (m.state.pc.toNat + 2) % 65536 :=
    UInt16.toNat_add _ _
  omega

/-- A step reckons the program counter as integers do: taking the opcode, going on behind it or
elsewhere, and naming the place of a fault. -/
structure StepsExactly (m : Machine) : Prop where
  fetched : ∀ op, m.fetch.result = .ok op →
    m.fetch.machine.state.pc.toNat = m.state.pc.toNat + 2 ∧ m.state.pc.toNat + 2 ≤ 0x1000
  went : ∀ op, m.step.result = .ok op → (m.step.machine.state.pc.toNat : Int) =
    if m.step.machine.state.refused then (m.fetch.machine.state.pc.toNat : Int)
    else (Instruction.decode op).next m.fetch.machine.state
  blamed : ∀ op f, m.fetch.result = .ok op →
    (m.step.result = .error f ∨ .skipped f ∈ m.step.log) →
      (f.address.toNat : Int) = m.fetch.machine.state.pc.toNat - 2

theorem fetch_result_eq_ok_iff (m : Machine) (op : Opcode) :
    m.fetch.result = .ok op ↔ m.peek m.state.pc = some op := by
  cases fetched : m.peek m.state.pc with
  | none => simp [fetch_of_none fetched]
  | some code => simp [fetch_of_some fetched]

/-- A fault of an instruction, passed on or skipped, names the address two before the program
counter. -/
theorem address_of_run_error {i : Instruction} {s : State} {f : Fault}
    (failed : i.run { s with refused := false } = .error f) (low : 2 ≤ s.pc.toNat) :
    (f.address.toNat : Int) = s.pc.toNat - 2 := by
  have site : (s.pc - 2).toNat = s.pc.toNat - 2 := UInt16.toNat_sub_of_le _ _ low
  rcases (Instruction.run_eq_error_iff _ _ f).mp failed with ⟨-, -, rfl⟩ | ⟨-, -, rfl⟩ <;>
  · simp only [Fault.address, site]
    omega

theorem run_error_of_skipped {m : Machine} {op : Opcode} {f : Fault}
    (skipped : .skipped f ∈ (m.execute op).log) :
    (Instruction.decode op).run { m.state with refused := false } = .error f := by
  cases carried : m.state.carryOut m.config.strict op with
  | error g => simp [execute_of_error carried] at skipped
  | ok after =>
    rcases State.carryOut_ok carried with ran | ⟨lenient, -, g, failed⟩
    · rw [execute_of_run ran] at skipped
      split at skipped <;> simp at skipped
    · rw [execute_of_skipped failed lenient] at skipped
      simp only [List.mem_singleton, Event.skipped.injEq] at skipped
      rw [skipped, failed]

theorem step_exact (m : Machine) : m.StepsExactly where
  fetched op done := by
    have found := (fetch_result_eq_ok_iff m op).mp done
    rw [fetch_of_some found]
    exact advance_pc found
  went op done := by
    rcases step_cases m with ⟨code, after, found, carried, reached, result⟩ | ⟨f, -, failed⟩
    · obtain ⟨behind, inside⟩ := advance_pc found
      obtain rfl : code = op := Except.ok.inj (result.symm.trans done)
      have went := State.carryOut_pc (s := m.advance.state) carried (by omega) (by omega)
      rw [reached, fetch_of_some found]
      exact went
    · rw [failed] at done
      cases done
  blamed op f done blamed := by
    have found := (fetch_result_eq_ok_iff m op).mp done
    obtain ⟨behind, -⟩ := advance_pc found
    have failed : (Instruction.decode op).run { m.advance.state with refused := false } = .error f := by
      rcases blamed with result | skipped
      · cases carried : m.advance.state.carryOut m.config.strict op with
        | ok after =>
          rw [(step_of_ok found carried).2] at result
          cases result
        | error g =>
          rw [(step_of_error found carried).2] at result
          cases result
          exact (State.carryOut_error carried).2
      · rw [step_log_of_some found, List.mem_cons] at skipped
        exact run_error_of_skipped (m := m.advance) (skipped.resolve_left nofun)
    have low : 2 ≤ m.advance.state.pc.toNat := by omega
    have named : (f.address.toNat : Int) = m.advance.state.pc.toNat - 2 :=
      address_of_run_error failed low
    rw [fetch_of_some found]
    exact named

/-- A jump past the address in its opcode goes to the true sum, whatever the machine. -/
theorem execute_jumpOffset (m : Machine) {op : Opcode} (family : op.family = 0xB) :
    (m.execute op).result = .ok () ∧
    (m.execute op).machine.state.pc.toNat = op.nnn.val + (m.state.v 0).toNat := by
  have decoded : Instruction.decode op = .jumpOffset op.nnn := by
    rw [Instruction.decode, family]
    rfl
  have ran : (Instruction.decode op).run { m.state with refused := false } =
      .ok { m.state with
        pc := op.nnn.toWord + (m.state.v 0).toUInt16, refused := false } := by
    rw [decoded]
    rfl
  rw [execute_of_run ran]
  exact ⟨rfl, Instruction.toNat_jumpOffset _ _⟩

/-! ## Runs -/

/-- An operation that is no bare execution keeps the program counter in range. -/
theorem Change.counterInRange {m after : Machine} {op : Operation} (change : Change m op after)
    (noExecute : ∀ code, op ≠ .execute code) (noRewind : op ≠ .rewind)
    (here : m.state.CounterInRange) : after.state.CounterInRange := by
  cases change with
  | fetched found =>
    obtain ⟨behind, inside⟩ := advance_pc found
    exact ⟨by omega, here.frames⟩
  | stepped found carried result =>
    obtain ⟨behind, inside⟩ := advance_pc found
    exact .carryOut carried (by omega) (by omega) here.frames
  | executed _ _ => exact absurd rfl (noExecute _)
  | rewound _ | unwound _ => exact absurd rfl noRewind
  | _ => exact ⟨here.pc, here.frames⟩

theorem counter_inRange (config : Config) (random : Random.Stream) (ops : List Operation)
    (noExecute : ∀ code, .execute code ∉ ops) :
    Everywhere State.CounterInRange ((newWith config random).performAll ops) := by
  have start : Rom.start.toNat ≤ 0x10FE := by decide
  refine performAll_keeps_of_part (fun {m op after} change origin here => ?_) ⟨⟨start, nofun⟩, nofun⟩
  refine here.change change (change.counterInRange ?_)
  rintro code rfl
  rcases origin with mem | step | delay | sound
  · exact noExecute code mem
  · cases step
  · cases delay
  · cases sound

theorem Change.index {m after : Machine} {op : Operation} (change : Change m op after)
    (noRewind : op ≠ .rewind) (here : m.state.index.toNat ≤ 0xFFF) :
    after.state.index.toNat ≤ 0xFFF := by
  cases change with
  | executed carried result => exact State.carryOut_index carried here
  | stepped found carried result => exact State.carryOut_index (s := m.advance.state) carried here
  | rewound _ | unwound _ => exact absurd rfl noRewind
  | _ => exact here

theorem index_inRange (config : Config) (random : Random.Stream) (ops : List Operation) :
    Everywhere (fun s => s.index.toNat ≤ 0xFFF) ((newWith config random).performAll ops) :=
  performAll_everywhere Change.index ⟨Nat.zero_le _, nofun⟩ ops

/-- Addresses after any operations on a new machine. The address register stays within memory, so that
a byte can be added to it, and the stack within its bound, now and in all that is remembered. The next
step reckons the program counter as integers do, and so does a jump by an offset, which goes no further
than the last address plus the largest byte. If no opcode was executed without being fetched, then the
program counter never was further than that either, and each return address lies behind an opcode in
memory. -/
theorem addresses_in_range (config : Config) (random : Random.Stream) (ops : List Operation) :
    let m := (newWith config random).performAll ops
    Everywhere (fun s => s.index.toNat ≤ 0xFFF ∧ s.stack.depth ≤ config.maxStackDepth) m ∧
    (∀ b : UInt8, (m.state.index + b.toUInt16).toNat = m.state.index.toNat + b.toNat) ∧
    m.StepsExactly ∧
    (∀ op, op.family = 0xB → (m.execute op).result = .ok () ∧
      (m.execute op).machine.state.pc.toNat = op.nnn.val + (m.state.v 0).toNat) ∧
    ((∀ code, .execute code ∉ ops) → Everywhere (State.InRange config.maxStackDepth) m) := by
  intro m
  have index : Everywhere _ m := index_inRange config random ops
  have depth : Everywhere _ m := stack_within config random ops
  refine ⟨?_, Instruction.toNat_add_byte index.1, step_exact m, fun op => execute_jumpOffset m, ?_⟩
  · exact (index.and depth).imp fun s both => ⟨both.1, both.2.2⟩
  · intro noExecute
    have counter : Everywhere _ m := counter_inRange config random ops noExecute
    exact ((counter.and index).and depth).imp
      fun s all => ⟨all.1.1, all.1.2, all.2.2⟩

/-- The largest byte, put into `V0` and added to the last address. -/
private theorem furthest_jump {m : Machine} (start : m.state.pc = 0x200)
    (first : m.peek 0x200 = some 0x60FF) (second : m.peek 0x202 = some 0xBFFF) :
    (m.performAll [.step, .step]).state.pc = 0x10FE := by
  have set : m.step.machine.state =
      { m.state.setV 0 0xFF with pc := 0x202, refused := false } := by
    have ran : m.advance.state.carryOut m.config.strict 0x60FF = .ok
        { m.state.setV 0 0xFF with pc := m.state.pc + 2, refused := false } := rfl
    rw [(step_of_ok (start ▸ first) ran).1, start]
    rfl
  have fetched : m.step.machine.peek m.step.machine.state.pc = some 0xBFFF := by
    rw [peek, set]
    exact second
  have byte : m.step.machine.state.v 0 = 0xFF := by
    rw [set]
    exact State.v_setV m.state 0 0 0xFF
  have ran : m.step.machine.advance.state.carryOut m.step.machine.config.strict 0xBFFF = .ok
      { m.step.machine.state with
        pc := (0xFFF : Address).toWord + (m.step.machine.state.v 0).toUInt16, refused := false } :=
    rfl
  change m.step.machine.step.machine.state.pc = 0x10FE
  rw [(step_of_ok fetched ran).1, byte]
  rfl

private theorem loaded_jump {m : Machine} (start : m.state.pc = 0x200) :
    (m.performAll [.load ⟨#[0x60, 0xFF, 0xBF, 0xFF]⟩, .step, .step]).state.pc = 0x10FE := by
  rw [performAll_cons]
  apply furthest_jump
  · exact (load_keeps m _).2.1.trans start
  · exact (peek_load m _ (by decide) (by decide)).trans (by decide)
  · exact (peek_load m _ (by decide) (by decide)).trans (by decide)

/-- The range is used up: a program of two opcodes reaches its end. -/
theorem addresses_at_furthest_jump :
    let start := newWith .standard (.ofSeed 0)
    let ops : List Operation := [.load ⟨#[0x60, 0xFF, 0xBF, 0xFF]⟩, .step, .step]
    (∀ code, .execute code ∉ ops) ∧ (start.performAll ops).state.pc = 0x10FE ∧
      Everywhere (State.InRange 16) (start.performAll ops) := by
  intro start ops
  have noExecute : ∀ code, .execute code ∉ ops := by simp [ops]
  have first : start.state.pc = 0x200 := rfl
  exact ⟨noExecute, loaded_jump first,
    (addresses_in_range .standard (.ofSeed 0) ops).2.2.2.2 noExecute⟩

end Machine

end ChipEight
