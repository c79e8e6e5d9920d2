import ChipEight.Instruction.Effect
import ChipEight.Instruction.Form
/-!
# The footprint of an instruction

What carrying out a single instruction can do to the call stack, to the screen and to the mark of
refusal, when it fails, and that it has changed nothing then. Each statement covers all instructions at
once, so that nothing about a machine has to take them apart again.
-/
namespace ChipEight

theorem State.skipIf_eq (s : State) (c : Bool) :
    s.skipIf c = { s with pc := if c then s.pc + 2 else s.pc } := by
  cases c <;> rfl

namespace Instruction

theorem decode_eq_ret_iff (op : Opcode) : decode op = ret ↔ op = 0x00EE := by
  constructor
  · intro h
    have written := encode_decode op
    rw [h] at written
    exact written.symm
  · rintro rfl
    rfl

theorem decode_eq_call_iff (op : Opcode) (a : Address) :
    decode op = call a ↔ op.family = 0x2 ∧ op.nnn = a := by
  constructor
  · intro h
    have written := encode_decode op
    rw [h] at written
    subst written
    have := a.isLt
    constructor <;> ext <;>
      simp only [encode, Opcode.withAddress, Opcode.family, Opcode.nnn, UInt16.toNat_ofNat',
        Fin.val_ofNat] <;> omega
  · rintro ⟨family, rfl⟩
    rw [decode, family]
    rfl

theorem run_ret_eq_ok_iff (s after : State) :
    ret.run s = .ok after ↔ ∃ back rest, s.stack.frames = back :: rest ∧
      after = { s with pc := back, stack := { s.stack with frames := rest } } := by
  cases frames : s.stack.frames with
  | nil => simp [run, perform, CallStack.pop?, frames]
  | cons back rest =>
    simp only [run, perform, done, CallStack.pop?, frames, Except.ok.injEq, List.cons.injEq]
    constructor
    · rintro rfl
      exact ⟨back, rest, ⟨rfl, rfl⟩, rfl⟩
    · rintro ⟨_, _, ⟨rfl, rfl⟩, rfl⟩
      rfl

theorem run_call_eq_ok_iff (a : Address) (s after : State) :
    (call a).run s = .ok after ↔ s.stack.depth < s.stack.limit ∧
      after = { s with
        pc := a.toWord, stack := { s.stack with frames := s.pc :: s.stack.frames } } := by
  by_cases room : s.stack.depth < s.stack.limit
  · simp [run, perform, done, CallStack.push, room, eq_comm]
  · simp [run, perform, CallStack.push, room]

theorem run_waitKey_eq_ok_iff (x : Register) (s after : State) :
    (waitKey x).run s = .ok after ↔
      (∃ k, s.keypad.current = some k ∧ after = s.setV x k.index) ∨
      (s.keypad.current = none ∧ after = { s with pc := s.pc - 2 }) := by
  cases key : s.keypad.current <;> simp [run, perform, done, key, eq_comm]

/-- The only failures are a return without an address to go back to and a call without room for one.
Both name the address two before the program counter. -/
theorem run_eq_error_iff (i : Instruction) (s : State) (f : Fault) :
    i.run s = .error f ↔
      (i = ret ∧ s.stack.frames = [] ∧ f = .stackUnderflow (s.pc - 2)) ∨
      ((∃ a, i = call a) ∧ s.stack.limit ≤ s.stack.depth ∧
        f = .stackOverflow (s.pc - 2) s.stack.limit) := by
  cases i with
  | ret =>
    cases frames : s.stack.frames with
    | nil => simp [run, perform, CallStack.pop?, frames, eq_comm]
    | cons back rest => simp [run, perform, done, CallStack.pop?, frames]
  | call a =>
    by_cases room : s.stack.depth < s.stack.limit
    · simp [run, perform, done, CallStack.push, room, Nat.not_le.mpr room]
    · simp [run, perform, CallStack.push, room, eq_comm, Nat.le_of_not_lt room]
  | waitKey x =>
    cases key : s.keypad.current <;> simp [run, perform, done, key]
  | _ => simp [run, perform, done]

/-- The same, told by the opcode. -/
theorem run_decode_eq_error_iff (op : Opcode) (s : State) (f : Fault) :
    (decode op).run s = .error f ↔
      (op = 0x00EE ∧ s.stack.frames = [] ∧ f = .stackUnderflow (s.pc - 2)) ∨
      (op.family = 0x2 ∧ s.stack.limit ≤ s.stack.depth ∧
        f = .stackOverflow (s.pc - 2) s.stack.limit) := by
  have isCall : (∃ a, decode op = call a) ↔ op.family = 0x2 := by
    simp [decode_eq_call_iff]
  rw [run_eq_error_iff, decode_eq_ret_iff, isCall]

theorem perform_of_run_ok {i : Instruction} {s after : State} (ran : i.run s = .ok after) :
    i.perform s = (after, .ok ()) := by
  unfold run at ran
  split at ran
  next performed =>
    cases ran
    exact performed
  next => cases ran

/-- An instruction that fails has changed nothing by then. -/
theorem perform_of_run_error {i : Instruction} {s : State} {f : Fault} (failed : i.run s = .error f) :
    i.perform s = (s, .error f) := by
  rcases (run_eq_error_iff i s f).mp failed with ⟨rfl, frames, rfl⟩ | ⟨⟨a, rfl⟩, full, rfl⟩
  · simp only [perform, CallStack.pop?, frames]
  · simp only [perform, CallStack.push, if_neg (Nat.not_lt.mpr full)]

/-- The stack stays, takes the address behind a call, or gives up the address that a return goes
to. -/
theorem run_stack {i : Instruction} {s after : State} (h : i.run s = .ok after) :
    after.stack = s.stack ∨
    ((∃ a, i = call a) ∧ s.stack.depth < s.stack.limit ∧
      after.stack = { s.stack with frames := s.pc :: s.stack.frames }) ∨
    (i = ret ∧ s.stack = { after.stack with frames := after.pc :: after.stack.frames }) := by
  cases i with
  | ret =>
    obtain ⟨back, rest, frames, rfl⟩ := (run_ret_eq_ok_iff s after).mp h
    exact Or.inr (Or.inr ⟨rfl, by rw [← frames]⟩)
  | call a =>
    obtain ⟨room, rfl⟩ := (run_call_eq_ok_iff a s after).mp h
    exact Or.inr (Or.inl ⟨⟨a, rfl⟩, room, rfl⟩)
  | waitKey x =>
    left
    rcases (run_waitKey_eq_ok_iff x s after).mp h with ⟨k, -, rfl⟩ | ⟨-, rfl⟩ <;> rfl
  | _ =>
    left
    simp only [run, perform, done, State.skipIf_eq, Except.ok.injEq] at h
    subst h
    rfl

/-- Instructions that draw on the screen or clear it. -/
def paints : Instruction → Bool
  | clear | draw _ _ _ => true
  | _ => false

/-- An instruction that paints asks for a redraw, and no other touches the screen or that wish. -/
theorem run_screen {i : Instruction} {s after : State} (h : i.run s = .ok after) :
    if i.paints then after.redraw = true
    else after.screen = s.screen ∧ after.redraw = s.redraw := by
  cases i with
  | ret =>
    obtain ⟨back, rest, -, rfl⟩ := (run_ret_eq_ok_iff s after).mp h
    exact ⟨rfl, rfl⟩
  | call a =>
    obtain ⟨-, rfl⟩ := (run_call_eq_ok_iff a s after).mp h
    exact ⟨rfl, rfl⟩
  | waitKey x =>
    rcases (run_waitKey_eq_ok_iff x s after).mp h with ⟨k, -, rfl⟩ | ⟨-, rfl⟩ <;> exact ⟨rfl, rfl⟩
  | clear | draw x y n =>
    simp only [run, perform, done, Except.ok.injEq] at h
    subst h
    rfl
  | _ =>
    simp only [run, perform, done, State.skipIf_eq, Except.ok.injEq] at h
    subst h
    exact ⟨rfl, rfl⟩

/-- An instruction that cannot be carried out is marked and does nothing else. -/
theorem run_of_isRefused {i : Instruction} (refused : i.form.isRefused = true) (s : State) :
    i.run s = .ok { s with refused := true } := by
  cases i with
  | machineRoutine a | unknown op => rfl
  | _ => cases refused

/-- No other instruction touches the mark. -/
theorem run_refused {i : Instruction} {s after : State} (h : i.run s = .ok after) :
    after.refused = (i.form.isRefused || s.refused) := by
  cases i with
  | ret =>
    obtain ⟨back, rest, -, rfl⟩ := (run_ret_eq_ok_iff s after).mp h
    rfl
  | call a =>
    obtain ⟨-, rfl⟩ := (run_call_eq_ok_iff a s after).mp h
    rfl
  | waitKey x =>
    rcases (run_waitKey_eq_ok_iff x s after).mp h with ⟨k, -, rfl⟩ | ⟨-, rfl⟩ <;> rfl
  | _ =>
    simp only [run, perform, done, State.skipIf_eq, Except.ok.injEq] at h
    subst h
    rfl

end Instruction

end ChipEight
