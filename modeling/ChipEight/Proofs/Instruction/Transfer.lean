import ChipEight.Proofs.Instruction.Address
import ChipEight.Proofs.Instruction.Pattern
import ChipEight.Proofs.Memory
/-!
# Registers in memory

What goes between registers and memory: `FX55` stores `V0` to `VX` in a row, `FX65` loads them from
there, and `FX33` writes the decimal digits of one register. The row starts wherever `I` points,
even past the end of memory, and goes round it. At most sixteen bytes are written, so none of them
is written over, and each of the first two takes back what the other has moved
(`registers_saved_and_restored`).
-/
namespace ChipEight

/-- `I` is moved round the end of memory. -/
theorem State.toNat_setIndex (s : State) (k : Nat) :
    (s.setIndex (s.index + UInt16.ofNat k)).index.toNat = (s.index.toNat + k) % 4096 := by
  rw [setIndex, Address.toNat_toWord]
  simp only [Address.wrap, Fin.val_ofNat, UInt16.toNat_add, UInt16.toNat_ofNat']
  omega

/-- A state whose `I` was moved on gets there again from where `I` was. -/
theorem State.setIndex_again {s after : State} {k : Nat}
    (moved : after.index.toNat = (s.index.toNat + k) % 4096) :
    setIndex { after with index := s.index } (s.index + UInt16.ofNat k) = after := by
  have same : (Address.wrap (s.index + UInt16.ofNat k)).toWord = after.index := by
    rw [← UInt16.toNat_inj, moved]
    exact toNat_setIndex s k
  rw [setIndex, same]

namespace Instruction

theorem decode_transfer (x : Register) :
    decode (.withByte 0xF x 0x55) = storeRegisters x ∧
    decode (.withByte 0xF x 0x65) = loadRegisters x ∧
    decode (.withByte 0xF x 0x33) = storeDecimal x := by
  have digits (b : UInt8) := Opcode.nibbles_withByte 0xF x b
  simp only [Opcode.nibbles, List.cons.injEq, and_true] at digits
  refine ⟨?_, ?_, ?_⟩ <;>
  · rw [decode, Opcode.toNat_nn, (digits _).1, (digits _).2.1, (digits _).2.2.1, (digits _).2.2.2]
    rfl

/-! ## Registers -/

/-- From `s` to `after`, the registers `V0` to `VX` are stored from `I` on, which is moved past
them. -/
structure Saved (x : Register) (s after : State) : Prop where
  stored (k : Register) (upTo : k ≤ x) : after.memory.byteAt (s.index.toNat + k.val) = s.v k
  elsewhere (place : Address)
    (outside : ∀ k : Register, k ≤ x → place.val ≠ (s.index.toNat + k.val) % 4096) :
    after.memory.byteAt place.val = s.memory.byteAt place.val
  index : after.index.toNat = (s.index.toNat + x.val + 1) % 4096
  rest : after = { s with memory := after.memory, index := after.index }

/-- From `s` to `after`, the registers `V0` to `VX` are loaded from `I` on, which is moved past
them. -/
structure Restored (x : Register) (s after : State) : Prop where
  loaded (k : Register) (upTo : k ≤ x) : after.v k = s.memory.byteAt (s.index.toNat + k.val)
  beyond (k : Register) (above : x < k) : after.v k = s.v k
  index : after.index.toNat = (s.index.toNat + x.val + 1) % 4096
  rest : after = { s with registers := after.registers, index := after.index }

theorem length_take_registers (s : State) (x : Register) :
    (s.registers.toList.take (x.val + 1)).length = x.val + 1 := by
  rw [List.length_take, Vector.length_toList]
  omega

theorem getElem_take_registers (s : State) (x k : Register)
    (inside : k.val < (s.registers.toList.take (x.val + 1)).length) :
    (s.registers.toList.take (x.val + 1))[k.val] = s.v k := by
  rw [List.getElem_take, Vector.getElem_toList]
  rfl

theorem v_loadedRegisters_of_le (s : State) {x k : Register} (upTo : k.val ≤ x.val) :
    { s with registers := loadedRegisters s x }.v k =
      s.memory.byteAt (s.index.toNat + k.val) := by
  rw [v_loadedRegisters, if_pos upTo, Memory.read_add]

theorem v_loadedRegisters_of_lt (s : State) {x k : Register} (above : x.val < k.val) :
    { s with registers := loadedRegisters s x }.v k = s.v k := by
  rw [v_loadedRegisters, if_neg (Nat.not_le.mpr above)]

theorem run_storeRegisters (x : Register) (s : State) :
    ∃ after, (storeRegisters x).run s = .ok after ∧ Saved x s after := by
  have few := length_take_registers s x
  have short : (s.registers.toList.take (x.val + 1)).length ≤ 4096 := by omega
  obtain ⟨within, elsewhere⟩ := Memory.overwritten_writeMany s.memory s.index short
  refine ⟨_, rfl, ?_, ?_, State.toNat_setIndex s (x.val + 1), rfl⟩
  · intro k upTo
    have inside : k.val < (s.registers.toList.take (x.val + 1)).length := by
      rw [few]
      exact Nat.lt_succ_of_le upTo
    exact (within k.val inside).trans (getElem_take_registers s x k inside)
  · intro place outside
    apply elsewhere place
    intro k inside
    rw [few] at inside
    exact outside ⟨k, by omega⟩ (Nat.le_of_lt_succ inside)

theorem run_loadRegisters (x : Register) (s : State) :
    ∃ after, (loadRegisters x).run s = .ok after ∧ Restored x s after := by
  refine ⟨_, rfl, ?_, ?_, State.toNat_setIndex s (x.val + 1), rfl⟩
  · intro k upTo
    exact v_loadedRegisters_of_le s upTo
  · intro k above
    exact v_loadedRegisters_of_lt s above

/-- Registers come back from where they were stored. -/
theorem run_loadRegisters_of_saved {x : Register} {s after : State} (saved : Saved x s after) :
    (loadRegisters x).run { after with index := s.index } = .ok after := by
  have kept : after.registers = s.registers := by rw [saved.rest]
  have back : loadedRegisters { after with index := s.index } x = after.registers := by
    apply Vector.ext
    intro k inside
    rcases Nat.lt_or_ge x.val k with above | upTo
    · exact v_loadedRegisters_of_lt { after with index := s.index } (k := ⟨k, inside⟩) above
    · have stored := saved.stored ⟨k, inside⟩ upTo
      have loaded := v_loadedRegisters_of_le { after with index := s.index } (k := ⟨k, inside⟩) upTo
      exact (loaded.trans stored).trans (congrArg (·[k]) kept.symm)
  simp only [run, perform, done]
  rw [State.setIndex_again saved.index, back]

/-- Registers go back to where they were loaded from. -/
theorem run_storeRegisters_of_restored {x : Register} {s after : State}
    (restored : Restored x s after) :
    (storeRegisters x).run { after with index := s.index } = .ok after := by
  have kept : after.memory = s.memory := by rw [restored.rest]
  have few := length_take_registers after x
  have back : after.memory.writeMany s.index (after.registers.toList.take (x.val + 1)) =
      after.memory := by
    apply Memory.writeMany_same (by omega)
    intro k inside
    have upTo : k < x.val + 1 := by rwa [few] at inside
    have loaded := restored.loaded ⟨k, by omega⟩ (Nat.le_of_lt_succ upTo)
    rw [kept, ← loaded, getElem_take_registers after x ⟨k, by omega⟩ inside]
  simp only [run, perform, done]
  rw [State.setIndex_again restored.index]
  exact congrArg (fun memory => Except.ok { after with memory := memory }) back

/-! ## Decimal digits -/

theorem decimalDigits_exact (b : UInt8) :
    ∃ h t o : UInt8, h < 10 ∧ t < 10 ∧ o < 10 ∧
      100 * h.toNat + 10 * t.toNat + o.toNat = b.toNat ∧ decimalDigits b = [h, t, o] := by
  have := b.toNat_lt
  refine ⟨b / 100, b / 10 % 10, b % 10, ?_, ?_, ?_, ?_, rfl⟩ <;>
  · simp only [UInt8.lt_iff_toNat_lt, UInt8.toNat_mod, UInt8.toNat_div, UInt8.reduceToNat]
    omega

/-- Storing the registers up to `VX` puts each at its place behind `I`, taken round the end of
memory, and loading them takes each from there; no other byte or register changes, and `I` moves
past them, round the end of memory. Once `I` is put back, loading what was just stored, and storing
what was just loaded, changes nothing but that it moves `I` again: registers and memory are both as
before. The decimal digits of `VX` are written in the three places from `I` on, and nothing else
changes. -/
theorem registers_saved_and_restored (s : State) (x : Register) :
    let storing : Opcode := .withByte 0xF x 0x55
    let loading : Opcode := .withByte 0xF x 0x65
    let digits : Opcode := .withByte 0xF x 0x33
    (∃ after, (decode storing).run s = .ok after ∧ Saved x s after ∧
      (decode loading).run { after with index := s.index } = .ok after) ∧
    (∃ after, (decode loading).run s = .ok after ∧ Restored x s after ∧
      (decode storing).run { after with index := s.index } = .ok after) ∧
    ∃ after, (decode digits).run s = .ok after ∧ after = { s with memory := after.memory } ∧
      ∃ h t o : UInt8, h < 10 ∧ t < 10 ∧ o < 10 ∧
        100 * h.toNat + 10 * t.toNat + o.toNat = (s.v x).toNat ∧
        s.memory.Overwritten s.index.toNat [h, t, o] after.memory := by
  intro storing loading digits
  obtain ⟨store, load, decimal⟩ := decode_transfer x
  simp only [storing, loading, digits, store, load, decimal]
  refine ⟨?_, ?_, ?_⟩
  · obtain ⟨after, ran, saved⟩ := run_storeRegisters x s
    exact ⟨after, ran, saved, run_loadRegisters_of_saved saved⟩
  · obtain ⟨after, ran, restored⟩ := run_loadRegisters x s
    exact ⟨after, ran, restored, run_storeRegisters_of_restored restored⟩
  · obtain ⟨h, t, o, hundreds, tens, ones, sum, written⟩ := decimalDigits_exact (s.v x)
    have short : [h, t, o].length ≤ 4096 := Nat.le_of_ble_eq_true rfl
    refine ⟨_, rfl, rfl, h, t, o, hundreds, tens, ones, sum, ?_⟩
    rw [written]
    exact Memory.overwritten_writeMany s.memory s.index short

end Instruction

end ChipEight
