import ChipEight.Proofs.Instruction.Pattern
import ChipEight.Proofs.Machine.Change
/-!
# The reach of an instruction

Which parts of the state an instruction of a form may change. `Reach` lists every part with the forms
that reach it; its lemmas say how one more change of a part that is allowed keeps a change within reach,
so that each instruction is followed assignment by assignment. `changes_as_documented` says the same of
opcodes, whose form is told by the pattern that they fit.
-/
namespace ChipEight

namespace Form

/-- The registers that an opcode of a form may change. -/
def writes (f : Form) (op : Opcode) (r : Register) : Prop :=
  match f with
  | loadByte | addByte | copy | or | and | xor | random | readDelay | waitKey => r = op.x
  | add | sub | shiftRight | subFrom | shiftLeft => r = op.x ∨ r = State.flag
  | draw => r = State.flag
  | loadRegisters => r ≤ op.x
  | _ => False

/-- From `s` to `after`, nothing is changed but what an opcode of the form `f` may change. -/
structure Reach (f : Form) (op : Opcode) (s after : State) : Prop where
  memory : after.memory = s.memory ∨ f ∈ [storeDecimal, storeRegisters]
  registers : ∀ r, after.v r = s.v r ∨ f.writes op r
  index : after.index = s.index ∨
    f ∈ [loadIndex, addIndex, loadGlyph, storeRegisters, loadRegisters]
  pc : after.pc = s.pc ∨ f ∈ [ret, jump, call, jumpOffset, skipEqByte, skipNeByte, skipEq, skipNe,
    skipKeyDown, skipKeyUp, waitKey]
  frames : after.stack.frames = s.stack.frames ∨ f ∈ [call, ret]
  limit : after.stack.limit = s.stack.limit
  screen : after.screen = s.screen ∨ f ∈ [clear, draw]
  redraw : after.redraw = s.redraw ∨ f ∈ [clear, draw]
  delay : after.delay = s.delay ∨ f = setDelay
  sound : after.sound = s.sound ∨ f = setSound
  keypad : after.keypad = s.keypad
  refused : after.refused = s.refused ∨ f ∈ [machineRoutine, unknown]
  random : after.random = s.random ∨ f = random

namespace Reach

variable {f : Form} {op : Opcode} {s after : State}

theorem refl (f : Form) (op : Opcode) (s : State) : Reach f op s s where
  memory := .inl rfl
  registers _ := .inl rfl
  index := .inl rfl
  pc := .inl rfl
  frames := .inl rfl
  limit := rfl
  screen := .inl rfl
  redraw := .inl rfl
  delay := .inl rfl
  sound := .inl rfl
  keypad := rfl
  refused := .inl rfl
  random := .inl rfl

/-- A register that may be changed takes a further value. -/
theorem setV (here : Reach f op s after) {r : Register} (allowed : f.writes op r) (b : UInt8) :
    Reach f op s (after.setV r b) :=
  { here with
    registers := fun q => by
      rw [State.v_setV]
      split
      next same => exact .inr (same ▸ allowed)
      next => exact here.registers q }

end Reach

end Form

namespace Instruction

open Opcode Form

/-- What is loaded from memory goes to the registers up to the last one asked for. -/
theorem v_loadedRegisters_or_le (s : State) (x r : Register) :
    State.v { s with registers := loadedRegisters s x } r = s.v r ∨ r ≤ x := by
  by_cases loaded : r.val ≤ x.val
  · exact .inr loaded
  · left
    rw [v_loadedRegisters, if_neg loaded]

/-- No instruction reaches further than its form. -/
theorem run_reach {i : Instruction} {s after : State} (ran : i.run s = .ok after) :
    i.form.Reach i.encode s after := by
  have still := Reach.refl i.form i.encode s
  cases i with
  | ret =>
    obtain ⟨back, rest, -, rfl⟩ := (run_ret_eq_ok_iff s after).mp ran
    exact { still with pc := .inr (by simp [form]), frames := .inr (by simp [form]) }
  | call a =>
    obtain ⟨-, rfl⟩ := (run_call_eq_ok_iff a s after).mp ran
    exact { still with pc := .inr (by simp [form]), frames := .inr (by simp [form]) }
  | waitKey x =>
    rcases (run_waitKey_eq_ok_iff x s after).mp ran with ⟨k, -, rfl⟩ | ⟨-, rfl⟩
    · exact still.setV (x_withByte _ _ _).symm _
    · exact { still with pc := .inr (by simp [form]) }
  | machineRoutine a | unknown op =>
    cases ran
    exact { still with refused := .inr (by simp [form]) }
  | clear =>
    cases ran
    exact { still with screen := .inr (by simp [form]), redraw := .inr (by simp [form]) }
  | jump a | jumpOffset a =>
    cases ran
    exact { still with pc := .inr (by simp [form]) }
  | skipEqByte | skipNeByte | skipEq | skipNe | skipKeyDown | skipKeyUp =>
    simp only [run, perform, done, State.skipIf_eq, Except.ok.injEq] at ran
    subst ran
    exact { still with pc := .inr (by simp [form]) }
  | loadByte x b | addByte x b | readDelay x =>
    cases ran
    exact still.setV (x_withByte _ _ _).symm _
  | copy x y | or x y | and x y | xor x y =>
    cases ran
    exact still.setV (x_withDigits _ _ _ _).symm _
  | add x y | sub x y | subFrom x y =>
    cases ran
    exact (still.setV (.inl (x_withDigits _ _ _ _).symm) _).setV (.inr rfl) _
  | shiftRight x y | shiftLeft x y =>
    cases ran
    exact (still.setV (.inr rfl) _).setV (.inl (x_withDigits _ _ _ _).symm) _
  | random x b =>
    cases ran
    exact { still.setV (x_withByte _ _ _).symm _ with random := .inr rfl }
  | draw x y n =>
    cases ran
    exact { still.setV (r := State.flag) rfl _ with
      screen := .inr (by simp [form]), redraw := .inr (by simp [form]) }
  | setDelay x =>
    cases ran
    exact { still with delay := .inr rfl }
  | setSound x =>
    cases ran
    exact { still with sound := .inr rfl }
  | loadIndex a | addIndex x | loadGlyph x =>
    cases ran
    exact { still with index := .inr (by simp [form]) }
  | storeDecimal x =>
    cases ran
    exact { still with memory := .inr (by simp [form]) }
  | storeRegisters x =>
    cases ran
    exact { still with memory := .inr (by simp [form]), index := .inr (by simp [form]) }
  | loadRegisters x =>
    cases ran
    have loaded (r : Register) :
        State.v { s with registers := loadedRegisters s x } r = s.v r ∨
          (loadRegisters x).form.writes (loadRegisters x).encode r := by
      rw [form, writes, encode, x_withByte]
      exact v_loadedRegisters_or_le s x r
    exact { still with registers := loaded, index := .inr (by simp [form]) }

/-- Under either fault policy an opcode reaches no further than its form, but for the mark of refusal,
which every opcode sets anew. -/
theorem carryOut_reach {strict : Bool} {op : Opcode} {s after : State}
    (carried : s.carryOut strict op = .ok after) :
    (decode op).form.Reach op { s with refused := after.refused } after := by
  rcases State.carryOut_ok carried with ran | ⟨-, rfl, -⟩
  · have reach := run_reach ran
    rw [encode_decode] at reach
    exact { reach with refused := .inl rfl }
  · exact .refl _ op _

end Instruction

end ChipEight
