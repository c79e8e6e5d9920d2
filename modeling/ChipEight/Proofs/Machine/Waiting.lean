import ChipEight.Proofs.Machine.Address
/-!
# Waiting for a key

A program waits by coming back to the same opcode: the step moves the program counter past it, and the
instruction moves it back as long as no key is current. So whether a machine waits can be told by a step
or without one, and a machine that waits does so until a key is pressed (`waits_for_key_in_place`).
-/
namespace ChipEight

/-- The opcode is an `FX0A`. -/
def Opcode.Waits (op : Opcode) : Prop := op.family = 0xF ∧ op.nn = 0x0A

namespace Instruction

theorem decode_of_waits {op : Opcode} (waits : op.Waits) : decode op = waitKey op.x := by
  rw [decode, waits.1, waits.2]
  rfl

theorem form_decode_eq_waitKey_iff (op : Opcode) : (decode op).form = .waitKey ↔ op.Waits := by
  constructor
  · intro form
    cases decoded : decode op with
    | waitKey x =>
      have written := encode_decode op
      rw [decoded, encode] at written
      have := x.isLt
      subst written
      constructor
      · ext
        simp only [Opcode.withByte, Opcode.family, UInt16.toNat_ofNat', Fin.val_ofNat,
          UInt8.reduceToNat]
        omega
      · rw [← UInt8.toNat_inj]
        simp only [Opcode.withByte, Opcode.nn, UInt16.toNat_ofNat', UInt8.toNat_ofNat',
          UInt8.reduceToNat]
        omega
    | _ =>
      rw [decoded] at form
      cases form
  · intro waits
    rw [decode_of_waits waits]
    rfl

end Instruction

namespace Machine

/-- The program counter of the machine is at `site`, where it finds `op`. -/
structure Faces (site : UInt16) (op : Opcode) (m : Machine) : Prop where
  pc : m.state.pc = site
  found : m.peek site = some op

theorem Faces.peek {site : UInt16} {op : Opcode} {m : Machine} (faces : Faces site op m) :
    m.peek m.state.pc = some op := by
  rw [faces.pc]
  exact faces.found

theorem isWaitingForKey_iff (m : Machine) :
    m.isWaitingForKey = true ↔
      ∃ op, op.Waits ∧ m.peek m.state.pc = some op ∧ m.state.keypad.current = none := by
  simp only [isWaitingForKey, Bool.and_eq_true, Option.any_eq_true, beq_iff_eq,
    Instruction.form_decode_eq_waitKey_iff, Option.isNone_iff_eq_none]
  constructor
  · rintro ⟨⟨op, found, waits⟩, nobody⟩
    exact ⟨op, waits, found, nobody⟩
  · rintro ⟨op, waits, found, nobody⟩
    exact ⟨⟨op, found, waits⟩, nobody⟩

theorem step_of_waits {m : Machine} {op : Opcode} {after : State} (waits : op.Waits)
    (found : m.peek m.state.pc = some op)
    (ran : (Instruction.waitKey op.x).run { m.advance.state with refused := false } = .ok after) :
    m.step.result = .ok op ∧ m.step.machine.state = after := by
  rw [← Instruction.decode_of_waits waits] at ran
  obtain ⟨reached, done⟩ := step_of_ok found (State.carryOut_of_run ran _)
  rw [reached]
  exact ⟨done, rfl⟩

/-- A step with no key to take ends where it began. -/
theorem step_without_key {m : Machine} {op : Opcode} (waits : op.Waits)
    (found : m.peek m.state.pc = some op) (nobody : m.state.keypad.current = none) :
    m.step.result = .ok op ∧ m.step.machine.state = { m.state with refused := false } := by
  apply step_of_waits waits found
  rw [Instruction.run_waitKey_eq_ok_iff]
  refine .inr ⟨nobody, ?_⟩
  simp only [advance, UInt16.add_sub_cancel]

/-- A step with a key to take goes on behind the opcode. -/
theorem step_with_key {m : Machine} {op : Opcode} {k : Key} (waits : op.Waits)
    (found : m.peek m.state.pc = some op) (key : m.state.keypad.current = some k) :
    m.step.result = .ok op ∧
    m.step.machine.state =
      { m.state.setV op.x k.index with pc := m.state.pc + 2, refused := false } := by
  apply step_of_waits waits found
  rw [Instruction.run_waitKey_eq_ok_iff]
  exact .inl ⟨k, key, rfl⟩

/-- A machine waits exactly if its next step succeeds with an `FX0A` and does not get anywhere. -/
theorem isWaitingForKey_iff_step (m : Machine) :
    m.isWaitingForKey = true ↔
      ∃ op, op.Waits ∧ m.step.result = .ok op ∧ m.step.machine.state.pc = m.state.pc := by
  rw [isWaitingForKey_iff]
  constructor
  · rintro ⟨op, waits, found, nobody⟩
    obtain ⟨done, state⟩ := step_without_key waits found nobody
    exact ⟨op, waits, done, by rw [state]⟩
  · rintro ⟨op, waits, done, stays⟩
    rcases step_cases m with ⟨code, after, found, -, -, result⟩ | ⟨f, -, failed⟩
    · obtain rfl : code = op := Except.ok.inj (result.symm.trans done)
      refine ⟨code, waits, found, ?_⟩
      cases key : m.state.keypad.current with
      | none => rfl
      | some k =>
        have moves := (advance_pc found).1
        rw [(step_with_key waits found key).2] at stays
        have same : m.state.pc + 2 = m.state.pc := stays
        change (m.state.pc + 2).toNat = _ at moves
        rw [same] at moves
        omega
    · rw [failed] at done
      cases done

/-! ## Until a key is pressed -/

/-- A step, a release, a tick or a picture taken: nothing that ends a wait. -/
def Operation.Idle : Operation → Prop
  | .step | .release _ | .tickDelay | .tickSound | .takeFrame => True
  | _ => False

def Operation.MovesKey : Operation → Prop
  | .press _ | .release _ => True
  | _ => False

/-- The machine faces an opcode with no key current. -/
structure Dozes (site : UInt16) (op : Opcode) (m : Machine) : Prop extends Faces site op m where
  nobody : m.state.keypad.current = none

theorem Dozes.idle {site : UInt16} {op : Opcode} {m : Machine} (waits : op.Waits)
    (dozes : Dozes site op m) {idle : Operation} (isIdle : idle.Idle) :
    Dozes site op (m.perform idle).machine := by
  cases idle with
  | step =>
    obtain ⟨-, state⟩ := step_without_key waits dozes.peek dozes.nobody
    change Dozes site op m.step.machine
    refine ⟨⟨?_, ?_⟩, ?_⟩
    · rw [state]
      exact dozes.pc
    · rw [Machine.peek, state]
      exact dozes.found
    · rw [state]
      exact dozes.nobody
  | release k =>
    refine ⟨⟨dozes.pc, dozes.found⟩, ?_⟩
    change (m.state.keypad.release k).current = none
    simp [Keypad.release, dozes.nobody]
  | tickDelay | tickSound => exact ⟨⟨dozes.pc, dozes.found⟩, dozes.nobody⟩
  | takeFrame =>
    change Dozes site op m.takeFrame.machine
    rw [takeFrame_machine]
    exact ⟨⟨dozes.pc, dozes.found⟩, dozes.nobody⟩
  | _ => exact isIdle.elim

theorem Faces.key {site : UInt16} {op : Opcode} {m : Machine} (faces : Faces site op m)
    {event : Operation} (isKey : event.MovesKey) : Faces site op (m.perform event).machine := by
  cases event with
  | press k | release k => exact ⟨faces.pc, faces.found⟩
  | _ => exact isKey.elim

/-- A machine waits for a key exactly if its next step succeeds with an `FX0A` and leaves the program
counter there. It then waits through any number of steps, releases, ticks and pictures taken, every step
with the same opcode and clearing no more than the mark of refusal. Whatever keys are pressed and released
after that, once one of them is current the next step puts its index into `VX`, goes on behind the opcode
and changes nothing else but that mark. -/
theorem waits_for_key_in_place (m : Machine) :
    (m.isWaitingForKey = true ↔
      ∃ op, op.Waits ∧ m.step.result = .ok op ∧ m.step.machine.state.pc = m.state.pc) ∧
    (m.isWaitingForKey = true → ∃ op, op.Waits ∧
      ∀ idle, (∀ operation ∈ idle, operation.Idle) →
        let later := m.performAll idle
        later.isWaitingForKey = true ∧ later.step.result = .ok op ∧
        later.step.machine.state = { later.state with refused := false } ∧
        ∀ events k, (∀ event ∈ events, event.MovesKey) →
          let woken := later.performAll events
          woken.state.keypad.current = some k →
            woken.step.result = .ok op ∧
            woken.step.machine.state =
              { woken.state.setV op.x k.index with pc := m.state.pc + 2, refused := false } ∧
            (m.state.pc + 2).toNat = m.state.pc.toNat + 2) := by
  refine ⟨isWaitingForKey_iff_step m, fun waiting => ?_⟩
  obtain ⟨op, waits, found, nobody⟩ := (isWaitingForKey_iff m).mp waiting
  refine ⟨op, waits, ?_⟩
  intro idle isIdle later
  have dozes : Dozes m.state.pc op later :=
    performAll_keeps_of_mem
      (fun _ operation mem here => here.idle waits (isIdle operation mem)) ⟨⟨rfl, found⟩, nobody⟩
  obtain ⟨done, state⟩ := step_without_key waits dozes.peek dozes.nobody
  refine ⟨?_, done, state, ?_⟩
  · rw [isWaitingForKey_iff]
    exact ⟨op, waits, dozes.peek, dozes.nobody⟩
  · intro events k areKeys woken key
    have faces : Faces m.state.pc op woken :=
      performAll_keeps_of_mem (fun _ event mem here => here.key (areKeys event mem)) dozes.toFaces
    obtain ⟨taken, after⟩ := step_with_key waits faces.peek key
    rw [faces.pc] at after
    exact ⟨taken, after, (advance_pc found).1⟩

/-- In the last word of memory too: a program waits there, and after a key is pressed the program counter
is past the end. -/
theorem waits_at_end_of_memory :
    let m : Machine := { new .standard with state := { State.initial .standard with
      pc := 0xFFE, memory := Memory.initial.load 0xFFE #[0xF3, 0x0A] } }
    let later := m.performAll [.step, .release 0x5, .tickSound]
    let woken := later.performAll [.press 0x5, .press 0x7, .release 0x5]
    m.isWaitingForKey = true ∧ later.step.result = .ok 0xF30A ∧
    woken.step.machine.state.v 0x3 = 7 ∧ woken.step.machine.state.pc = 0x1000 := by
  intro m later woken
  have waits : Opcode.Waits 0xF30A := ⟨by decide, by decide⟩
  have found : m.peek m.state.pc = some 0xF30A :=
    (Memory.word?_load Memory.initial #[0xF3, 0x0A] (by decide) (by decide)).trans (by decide)
  have waiting : m.isWaitingForKey = true :=
    (isWaitingForKey_iff m).mpr ⟨0xF30A, waits, found, rfl⟩
  obtain ⟨op, -, onwards⟩ := (waits_for_key_in_place m).2 waiting
  obtain ⟨-, first, -⟩ := onwards [] nofun
  obtain rfl : 0xF30A = op :=
    Except.ok.inj ((step_without_key waits found rfl).1.symm.trans first)
  obtain ⟨-, done, -, wakes⟩ := onwards [.step, .release 0x5, .tickSound] (by simp [Operation.Idle])
  obtain ⟨-, after, -⟩ :=
    wakes [.press 0x5, .press 0x7, .release 0x5] 0x7 (by simp [Operation.MovesKey]) rfl
  have taken (s : State) (pc : UInt16) :
      State.v { s.setV 0x3 7 with pc := pc, refused := false } 0x3 = 7 := by
    simp [State.v, State.setV]
  refine ⟨waiting, done, ?_, ?_⟩
  · rw [after]
    exact taken _ _
  · rw [after]
    rfl

end Machine

end ChipEight
