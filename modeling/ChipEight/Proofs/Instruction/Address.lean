import ChipEight.Proofs.Instruction.Footprint
/-!
# Addresses of an instruction

Where an instruction sends the program counter, and what it leaves in the address register. `next`
reckons in integers, which have no end to wrap around; `run_pc` says that the machine's words agree with
it as soon as the counter has passed an opcode and is not at the end of its own range.
-/
namespace ChipEight

theorem Address.toNat_toWord (a : Address) : a.toWord.toNat = a.val := by
  have := a.isLt
  rw [toWord, UInt16.toNat_ofNat']
  omega

theorem Address.toNat_toWord_le (a : Address) : a.toWord.toNat ≤ 0xFFF := by
  have := a.isLt
  rw [toNat_toWord]
  omega

namespace Instruction

/-- Whether an instruction passes over the one behind it. -/
def skips (i : Instruction) (s : State) : Bool :=
  match i with
  | skipEqByte x b => s.v x == b
  | skipNeByte x b => s.v x != b
  | skipEq x y => s.v x == s.v y
  | skipNe x y => s.v x != s.v y
  | skipKeyDown x => s.keypad.isDown (.ofLowDigit (s.v x))
  | skipKeyUp x => !s.keypad.isDown (.ofLowDigit (s.v x))
  | _ => false

/-- Where a program goes on behind an instruction that does not fail, in integers. -/
def next (i : Instruction) (s : State) : Int :=
  match i with
  | ret => (s.stack.frames.headD s.pc).toNat
  | jump a | call a => a.val
  | jumpOffset a => a.val + (s.v 0).toNat
  | waitKey _ => if s.keypad.current.isNone then s.pc.toNat - 2 else s.pc.toNat
  | _ => if i.skips s then s.pc.toNat + 2 else s.pc.toNat

/-- A byte added to an address in memory does not wrap a word. -/
theorem toNat_add_byte {a : UInt16} (inside : a.toNat ≤ 0xFFF) (b : UInt8) :
    (a + b.toUInt16).toNat = a.toNat + b.toNat := by
  have := b.toNat_lt
  rw [UInt16.toNat_add, UInt8.toNat_toUInt16]
  omega

theorem toNat_jumpOffset (a : Address) (b : UInt8) :
    (a.toWord + b.toUInt16).toNat = a.val + b.toNat := by
  rw [toNat_add_byte a.toNat_toWord_le, Address.toNat_toWord]

/-- With the program counter past an opcode, no instruction makes it wrap. -/
theorem run_pc {i : Instruction} {s after : State} (ran : i.run s = .ok after)
    (low : 2 ≤ s.pc.toNat) (high : s.pc.toNat + 2 < 65536) :
    (after.pc.toNat : Int) = i.next s := by
  have skip (c : Bool) : ((if c then s.pc + 2 else s.pc).toNat : Int) =
      if c then (s.pc.toNat : Int) + 2 else s.pc.toNat := by
    cases c with
    | false => rfl
    | true =>
      simp only [if_true, UInt16.toNat_add, UInt16.reduceToNat]
      omega
  cases i with
  | ret =>
    obtain ⟨back, rest, frames, rfl⟩ := (run_ret_eq_ok_iff s after).mp ran
    rw [next, frames]
    rfl
  | call a =>
    obtain ⟨-, rfl⟩ := (run_call_eq_ok_iff a s after).mp ran
    exact congrArg Int.ofNat (Address.toNat_toWord a)
  | jump a =>
    cases ran
    exact congrArg Int.ofNat (Address.toNat_toWord a)
  | jumpOffset a =>
    cases ran
    exact congrArg Int.ofNat (toNat_jumpOffset a (s.v 0))
  | waitKey x =>
    rcases (run_waitKey_eq_ok_iff x s after).mp ran with ⟨k, key, rfl⟩ | ⟨key, rfl⟩
    · simp [next, key, State.setV]
    · simp only [next, key, Option.isNone_none, if_true, UInt16.toNat_sub, UInt16.reduceToNat]
      omega
  | skipEqByte | skipNeByte | skipEq | skipNe | skipKeyDown | skipKeyUp =>
    simp only [run, perform, done, State.skipIf_eq, Except.ok.injEq] at ran
    subst ran
    exact skip _
  | _ =>
    cases ran
    rfl

/-- An instruction leads at most as far as the last address plus the largest byte. -/
theorem next_le {i : Instruction} {s : State} (high : s.pc.toNat ≤ 0x1000)
    (frames : ∀ back ∈ s.stack.frames, back.toNat ≤ 0x1000) : i.next s ≤ 0x10FE := by
  have byte := (s.v 0).toNat_lt
  cases i with
  | ret =>
    have top : (s.stack.frames.headD s.pc).toNat ≤ 0x1000 := by
      cases stack : s.stack.frames with
      | nil => exact high
      | cons back rest => exact frames back (stack ▸ List.mem_cons_self)
    simp only [next]
    omega
  | jump a | call a | jumpOffset a =>
    have := a.isLt
    simp only [next]
    omega
  | waitKey x =>
    simp only [next]
    split <;> omega
  | _ =>
    simp only [next]
    split <;> omega

/-- The address register stays within memory, or as it was. -/
theorem run_index {i : Instruction} {s after : State} (ran : i.run s = .ok after) :
    after.index = s.index ∨ after.index.toNat ≤ 0xFFF := by
  cases i with
  | ret =>
    obtain ⟨back, rest, -, rfl⟩ := (run_ret_eq_ok_iff s after).mp ran
    exact Or.inl rfl
  | call a =>
    obtain ⟨-, rfl⟩ := (run_call_eq_ok_iff a s after).mp ran
    exact Or.inl rfl
  | waitKey x =>
    left
    rcases (run_waitKey_eq_ok_iff x s after).mp ran with ⟨k, -, rfl⟩ | ⟨-, rfl⟩ <;> rfl
  | loadIndex a | addIndex x | storeRegisters x | loadRegisters x =>
    cases ran
    exact Or.inr (Address.toNat_toWord_le _)
  | loadGlyph x =>
    cases ran
    right
    have digit := (Fin.ofNat 16 (s.v x).toNat).isLt
    simp only [Font.glyph, Font.start, Font.glyphHeight, UInt16.toNat_ofNat']
    exact Nat.le_trans (Nat.mod_le _ _) (by omega)
  | _ =>
    left
    simp only [run, perform, done, State.skipIf_eq, Except.ok.injEq] at ran
    subst ran
    rfl

end Instruction

end ChipEight
