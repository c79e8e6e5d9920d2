import ChipEight.Proofs.Instruction.Reach
import ChipEight.Proofs.Machine.Chronicle
import ChipEight.Proofs.Machine.Replay
import ChipEight.Proofs.Random
/-!
# Random bytes

The random bytes of a machine are those of its stream, one after the other. How many have been drawn is a
chronicle (`draws`), so that a rewind takes draws back. It tells what has become of the stream, its block
and its counter included (`random_performAll`), and so which byte comes next, whatever else has been done
to the machine.
-/
namespace ChipEight

open ChipEight.Random

theorem Instruction.decode_of_random {op : Opcode} (family : op.family = 0xC) :
    decode op = random op.x op.nn := by
  rw [decode, family]
  rfl

theorem Instruction.family_of_form_random {op : Opcode} (form : (decode op).form = .random) :
    op.family = 0xC := by
  cases decoded : decode op with
  | random x b =>
    rw [← encode_decode op, decoded]
    exact (List.cons.inj (Opcode.nibbles_withByte 0xC x b)).1
  | _ =>
    rw [decoded] at form
    cases form

namespace State

/-- A random byte is masked, and the stream moves on. -/
theorem carryOut_random {strict : Bool} {op : Opcode} {s after : State} (family : op.family = 0xC)
    (carried : s.carryOut strict op = .ok after) :
    after.v op.x = op.nn &&& s.random.nextByte.1 ∧ after.random = s.random.nextByte.2 := by
  rw [carryOut, Instruction.decode_of_random family] at carried
  cases carried
  refine ⟨?_, rfl⟩
  have written := v_setV { s with refused := false } op.x op.x (s.random.nextByte.1 &&& op.nn)
  rw [if_pos rfl] at written
  exact written.trans (UInt8.and_comm _ _)

theorem carryOut_keeps_random {strict : Bool} {op : Opcode} {s after : State}
    (family : op.family ≠ 0xC) (carried : s.carryOut strict op = .ok after) :
    after.random = s.random := by
  rcases (Instruction.carryOut_reach carried).random with same | form
  · exact same
  · exact absurd (Instruction.family_of_form_random form) family

end State

namespace Machine

/-- What the count of random bytes drawn is after an opcode. -/
def noteDraw (count : Nat) (_ : State) (op : Opcode) : Nat :=
  if op.family = 0xC then count + 1 else count

/-- How many random bytes have been drawn on the way that has led to the state. -/
def draws (m : Machine) (ops : List Operation) : Nat := (m.chronicle noteDraw 0 ops).now

/-- The count tells how far the stream has moved on. -/
theorem tells_noteDraw (source : Stream) :
    Tells noteDraw (fun count s => s.random = source.after count) where
  untouched screen random here := random.trans here
  written {count s after strict op} carried here := by
    unfold noteDraw
    split
    next family =>
      rw [(State.carryOut_random family carried).2, here]
      rfl
    next family => rw [State.carryOut_keeps_random family carried, here]

theorem random_performAll (config : Config) (source : Stream) (ops : List Operation) :
    let start := newWith config source
    (start.performAll ops).state.random = source.after (start.draws ops) :=
  (describes_chronicle (tells_noteDraw source) (m := newWith config source) rfl rfl ops).now

/-- A random byte drawn is the next one. -/
theorem Change.v_drawn {m after : Machine} {op : Operation} {code : Opcode}
    (change : Change m op after) (executed : m.executed? op = some code)
    (family : code.family = 0xC) :
    after.state.v code.x = code.nn &&& m.state.random.nextByte.1 := by
  cases change with
  | @executed op after carried result =>
    simp only [executed?, result, Except.toOption, Option.map_some, Option.some.injEq] at executed
    subst executed
    exact (State.carryOut_random family carried).1
  | @stepped op after fetched carried result =>
    simp only [executed?, result, Except.toOption, Option.some.injEq] at executed
    subst executed
    exact (State.carryOut_random family carried).1
  | unexecuted result | unstepped result => simp [executed?, result, Except.toOption] at executed
  | _ => cases executed

/-- After any run of a new machine with a seed, its stream is the seed's after as many words as have been
drawn on the way that has led to the state. In any run, its frames taken apart, each `CXNN` executed sets
`VX` to the byte that the seed and the number of draws before it determine, masked. After steps that are
taken back by rewinds, the machine answers as it would have done before them and goes through the same
states, so that the same bytes are drawn again. -/
theorem random_bytes_by_count (config : Config) (seed : UInt64) (chance : Stream)
    (ops : List Operation) :
    let start := new { config with seed := some seed } chance
    (start.performAll ops).state.random = (Stream.ofSeed seed).after (start.draws ops) ∧
    (∀ front op code, front ++ [op] <+: start.primitives ops →
      (start.performAll front).executed? op = some code → code.family = 0xC →
      let k := start.draws front
      (start.performAll (front ++ [op])).state.v code.x = code.nn &&&
        (ChaCha.block (Seed.key seed) (UInt64.ofNat (k / 16)))[k % 16].toUInt8) ∧
    (let reached := start.performAll ops
    ∀ count ≤ config.historyLimit, (reached.steps count).result = .ok count →
      let undone := (reached.steps count).machine.performAll (.replicate count .rewind)
      ∀ again, .rewind ∉ again →
        undone.answers again = reached.answers again ∧
        (undone.performAll again).state = (reached.performAll again).state) := by
  intro start
  have made : start = newWith { config with seed := some seed } (.ofSeed seed) :=
    new_eq_newWith _ chance
  have source (front : List Operation) :
      (start.performAll front).state.random = (Stream.ofSeed seed).after (start.draws front) := by
    rw [made]
    exact random_performAll _ (.ofSeed seed) front
  refine ⟨source ops, ?_, ?_⟩
  · intro front op code inside executed family k
    have noFrame : op ≠ .runFrame :=
      (mem_primitives (inside.subset (List.mem_append_right front List.mem_cons_self))).1
    have drawn := (change_of_perform _ noFrame).v_drawn executed family
    rw [source front, Stream.nextByte, Stream.ofSeed, Stream.next_after] at drawn
    rw [performAll_append]
    exact drawn
  · intro reached count within done undone again noRewind
    have settings : reached.config = { config with seed := some seed } :=
      performAll_config start ops
    have bounded : Bounded reached := (made ▸ bounded_newWith _ (.ofSeed seed)).performAll ops
    exact (alike_of_undone bounded (by rw [settings]; exact within) done).answers noRewind

private theorem step_random {m : Machine} (start : m.state.pc = 0x200)
    (found : m.peek 0x200 = some 0xC0FF) :
    m.executed? .step = some 0xC0FF ∧ (m.steps 1).result = .ok 1 ∧
    (m.steps 1).machine = m.step.machine := by
  have done : m.step.result = .ok 0xC0FF := (step_of_ok (start ▸ found) rfl).2
  rw [executed?, done, steps, stepsAfter_succ_of_ok done]
  exact ⟨rfl, rfl, rfl⟩

private theorem draws_load (m : Machine) (rom : Rom) : m.draws [.load rom] = 0 := rfl

private theorem performAll_rewind (m : Machine) (load : Operation) :
    m.performAll [load, .step, .rewind, .step] = ((m.performAll [load]).step.machine.performAll
      (.replicate 1 .rewind)).performAll [.step] := rfl

private theorem byte_of_seed_zero {k : Nat} (first : k = 0) :
    Opcode.nn 0xC0FF &&&
      (ChaCha.block (Seed.key 0) (UInt64.ofNat (k / 16)))[k % 16].toUInt8 = 127 := by
  subst first
  decide +kernel

/-- Seed 0 draws 127 first, and again when the step has been taken back. -/
theorem first_byte_of_seed_zero :
    let start := new { Config.standard with seed := some 0 }
    let load : Operation := .load ⟨#[0xC0, 0xFF]⟩
    (start.performAll [load, .step]).state.v 0 = 127 ∧
    (start.performAll [load, .step, .rewind, .step]).state.v 0 = 127 := by
  intro start load
  obtain ⟨-, drawn, -⟩ := random_bytes_by_count .standard 0 (.ofSeed 0) [load, .step]
  obtain ⟨-, -, again⟩ := random_bytes_by_count .standard 0 (.ofSeed 0) [load]
  let loaded := start.performAll [load]
  have place : loaded.state.pc = 0x200 := (load_keeps start _).2.1
  have found : loaded.peek 0x200 = some 0xC0FF :=
    (peek_load start _ (by decide) (by decide)).trans (by decide)
  obtain ⟨executed, all, stepped⟩ := step_random place found
  have first : (start.performAll ([load] ++ [.step])).state.v (Opcode.x 0xC0FF) = 127 := by
    rw [drawn [load] .step 0xC0FF (List.prefix_refl _) executed rfl]
    exact byte_of_seed_zero (draws_load start _)
  have undone := (again 1 (by decide) all [.step] (by simp)).2
  have register : Opcode.x 0xC0FF = 0 := by decide
  rw [register] at first
  refine ⟨first, ?_⟩
  rw [performAll_rewind, ← stepped, undone, ← performAll_append]
  exact first

end Machine

end ChipEight
