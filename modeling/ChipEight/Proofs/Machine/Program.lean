import ChipEight.Proofs.Machine.Run
import ChipEight.Proofs.Memory
/-!
# Loading programs

A program fills memory from its start to the end, whatever was there, and nothing else is changed
but that the machine forgets its past. So once a program is loaded nothing is left of those before
it, not even of what they have written over themselves (`load_fixes_program_space`).
-/
namespace ChipEight

/-- All of memory from `Rom.start` on takes programs. -/
theorem Memory.fitting_program (count : Nat) : fitting Rom.start count = min count 0xE00 := rfl

namespace Machine

/-- What a program leaves behind its start does not depend on the memory that it is loaded to. -/
theorem program_load (m n : Machine) (rom : Rom) {place : Address}
    (behind : Rom.start.toNat ≤ place.val) :
    (m.load rom).machine.state.memory.byteAt place.val =
      (n.load rom).machine.state.memory.byteAt place.val := by
  have within : ¬ place.val < Rom.start.toNat := Nat.not_lt.mpr behind
  simp only [load_machine, Memory.byteAt_load, within, if_false]

/-- At every even place, the last one included, there is an opcode to be found behind a loaded
program. -/
theorem peek_program (m : Machine) (rom : Rom) {j : Nat} (inside : j < 0xE00) (even : j % 2 = 0) :
    ∃ op, (m.load rom).machine.peek (UInt16.ofNat (0x200 + j)) = some op ∧
      op.toNat = 256 * (rom.bytes.getD j 0).toNat + (rom.bytes.getD (j + 1) 0).toNat := by
  have place : (UInt16.ofNat (0x200 + j)).toNat = 0x200 + j := by
    rw [UInt16.toNat_ofNat']
    omega
  have start : Rom.start.toNat = 0x200 := rfl
  have found := m.peek_load rom (a := UInt16.ofNat (0x200 + j)) (by omega) (by omega)
  rw [place, start, Nat.add_assoc, Nat.add_sub_cancel_left, Nat.add_sub_cancel_left] at found
  refine ⟨_, found, ?_⟩
  have := (rom.bytes.getD j 0).toNat_lt
  have := (rom.bytes.getD (j + 1) 0).toNat_lt
  rw [Opcode.ofBytes, UInt16.toNat_ofNat']
  omega

/-- Data loaded to memory at an address keeps what is before it, puts as many of its bytes as fit
from there on, tells their number and clears the rest to the end; where nothing fits, nothing is
changed. A machine in
any state that loads a program tells how many of its bytes fitted, keeps all of its state but the
memory from the start of programs on, and forgets the states and opcodes of its past. So at the end
of any run that loads a program last, memory behind the start of programs is that of a new machine
that has loaded only this one, and every even place there holds the opcode made of two bytes of the
program, with zeros after its last. -/
theorem load_fixes_program_space :
    (∀ (memory : Memory) (a : UInt16) (data : Array UInt8),
      let count := Memory.fitting a data.size
      memory.replace a data = (memory.load a data, count) ∧
      count = min data.size (4096 - min a.toNat 4096) ∧
      memory.Filled a.toNat data count (memory.load a data) ∧
      (4096 ≤ a.toNat → count = 0 ∧ memory.load a data = memory)) ∧
    (∀ (m : Machine) (rom : Rom),
      let after := (m.load rom).machine
      (m.load rom).result = min rom.size 0xE00 ∧
      (∀ place : Address, place.val < 0x200 →
        after.state.memory.byteAt place.val = m.state.memory.byteAt place.val) ∧
      after = { m with
        state := { m.state with memory := after.state.memory }, history := [], past := [] }) ∧
    ∀ (config fresh : Config) (random chance : Random.Stream) (ops : List Operation) (rom : Rom),
      let after := (newWith config random).performAll (ops ++ [.load rom])
      let only := ((newWith fresh chance).load rom).machine
      (∀ place : Address, 0x200 ≤ place.val →
        after.state.memory.byteAt place.val = only.state.memory.byteAt place.val) ∧
      ∀ j < 0xE00, j % 2 = 0 → ∃ op, after.peek (UInt16.ofNat (0x200 + j)) = some op ∧
        op.toNat = 256 * (rom.bytes.getD j 0).toNat + (rom.bytes.getD (j + 1) 0).toNat := by
  refine ⟨?_, ?_, ?_⟩
  · intro memory a data count
    have size : count = min data.size (4096 - a.toNat) := rfl
    refine ⟨memory.replace_eq a data, by omega, memory.filled_load a data,
      fun outside => ⟨by omega, ?_⟩⟩
    exact memory.load_of_outside outside data
  · intro m rom after
    refine ⟨(load_result m rom).trans (Memory.fitting_program rom.size), ?_, rfl⟩
    simp only [after, load_machine]
    exact (m.state.memory.filled_load Rom.start rom.bytes).before
  · intro config fresh random chance ops rom after only
    have last : after = (((newWith config random).performAll ops).load rom).machine :=
      performAll_append _ ops [.load rom]
    rw [last]
    constructor
    · intro place behind
      exact program_load _ _ rom behind
    · intro j inside even
      exact peek_program _ rom inside even

end Machine

end ChipEight
