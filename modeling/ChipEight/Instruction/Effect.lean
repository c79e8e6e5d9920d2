import ChipEight.Instruction.Basic
import ChipEight.State
/-!
# What instructions do

`perform` carries an instruction out on a state whose program counter is already past the instruction's
opcode (the specification, §4.3): a skip moves it two further, and waiting for a key moves it two back
(§4.5). Only a call and a return can fail (§7). What they leave behind then is a state like any other;
that it is the state before is a theorem, `perform_of_run_error`.
-/
namespace ChipEight.Instruction

/-- The three decimal digits of a byte. -/
def decimalDigits (b : UInt8) : List UInt8 := [b / 100, b / 10 % 10, b % 10]

/-- The carry of a sum. -/
def carry (a b : UInt8) : UInt8 := if a.toNat + b.toNat < 256 then 0 else 1

/-- One unless taking `b` from `a` borrows. -/
def noBorrow (a b : UInt8) : UInt8 := if b ≤ a then 1 else 0

/-- `V0` to `VX` replaced, one after the other, by the bytes in memory from `I` on. -/
def loadedRegisters (s : State) (x : Register) : Registers :=
  fill s.registers 0 (fun k => s.memory.read (s.index + UInt16.ofNat k)) (x.val + 1)

/-- Each register up to `VX` has its own place behind `I`, and the others are kept. -/
theorem loadedRegisters_eq (s : State) (x : Register) :
    loadedRegisters s x = Vector.ofFn fun k : Register =>
      if k.val ≤ x.val then s.memory.read (s.index + UInt16.ofNat k.val) else s.v k := by
  refine Vector.ext fun i inside => ?_
  have upTo : (0 ≤ i ∧ i < 0 + (x.val + 1)) ↔ i ≤ x.val := by omega
  simp only [loadedRegisters, getElem_fill, upTo, Nat.sub_zero, Vector.getElem_ofFn, State.v,
    Fin.getElem_fin]

theorem v_loadedRegisters (s : State) (x r : Register) :
    State.v { s with registers := loadedRegisters s x } r =
      if r.val ≤ x.val then s.memory.read (s.index + UInt16.ofNat r.val) else s.v r := by
  simp only [State.v, loadedRegisters_eq, Fin.getElem_fin, Vector.getElem_ofFn]

/-- The state after an instruction that went well. -/
def done (s : State) : State × Except Fault Unit := (s, .ok ())

/-- The state that an instruction leaves behind, and whether it failed. -/
def perform (i : Instruction) (s : State) : State × Except Fault Unit :=
  match i with
  | machineRoutine _ | unknown _ => done { s with refused := true }
  | clear => done { s with screen := .blank, redraw := true }
  | ret =>
    match s.stack.pop? with
    | some (back, rest) => done { s with pc := back, stack := rest }
    | none => (s, .error (.stackUnderflow (s.pc - 2)))
  | jump a => done { s with pc := a.toWord }
  | call a =>
    match s.stack.push s.pc with
    | .ok stack => done { s with pc := a.toWord, stack := stack }
    | .error f => (s, .error f)
  | skipEqByte x b => done (s.skipIf (s.v x == b))
  | skipNeByte x b => done (s.skipIf (s.v x != b))
  | skipEq x y => done (s.skipIf (s.v x == s.v y))
  | skipNe x y => done (s.skipIf (s.v x != s.v y))
  | loadByte x b => done (s.setV x b)
  | addByte x b => done (s.setV x (s.v x + b))
  | copy x y => done (s.setV x (s.v y))
  | or x y => done (s.setV x (s.v x ||| s.v y))
  | and x y => done (s.setV x (s.v x &&& s.v y))
  | xor x y => done (s.setV x (s.v x ^^^ s.v y))
  -- The flag has the last word in sums and differences, the result in shifts.
  | add x y => done ((s.setV x (s.v x + s.v y)).setV State.flag (carry (s.v x) (s.v y)))
  | sub x y => done ((s.setV x (s.v x - s.v y)).setV State.flag (noBorrow (s.v x) (s.v y)))
  | subFrom x y => done ((s.setV x (s.v y - s.v x)).setV State.flag (noBorrow (s.v y) (s.v x)))
  | shiftRight x y => done ((s.setV State.flag (s.v y % 2)).setV x (s.v y / 2))
  | shiftLeft x y => done ((s.setV State.flag (s.v y / 128)).setV x (s.v y + s.v y))
  | loadIndex a => done { s with index := a.toWord }
  | jumpOffset a => done { s with pc := a.toWord + (s.v 0).toUInt16 }
  | random x b =>
    let drawn := s.random.nextByte
    done { s.setV x (drawn.1 &&& b) with random := drawn.2 }
  | draw x y n =>
    let picture := Screen.stamp (s.v x) (s.v y) (s.memory.readMany s.index n.val)
    done { s.setV State.flag (if s.screen.overlaps picture then 1 else 0) with
      screen := s.screen.flip picture, redraw := true }
  | skipKeyDown x => done (s.skipIf (s.keypad.isDown (.ofLowDigit (s.v x))))
  | skipKeyUp x => done (s.skipIf (!s.keypad.isDown (.ofLowDigit (s.v x))))
  | readDelay x => done (s.setV x s.delay.value)
  | waitKey x =>
    match s.keypad.current with
    | some k => done (s.setV x k.index)
    | none => done { s with pc := s.pc - 2 }
  | setDelay x => done { s with delay := ⟨s.v x⟩ }
  | setSound x => done { s with sound := ⟨s.v x⟩ }
  | addIndex x => done (s.setIndex (s.index + (s.v x).toUInt16))
  | loadGlyph x => done { s with index := Font.glyph (Fin.ofNat 16 (s.v x).toNat) }
  | storeDecimal x =>
    done { s with memory := s.memory.writeMany s.index (decimalDigits (s.v x)) }
  | storeRegisters x =>
    done { s.setIndex (s.index + UInt16.ofNat (x.val + 1)) with
      memory := s.memory.writeMany s.index (s.registers.toList.take (x.val + 1)) }
  | loadRegisters x =>
    done { s.setIndex (s.index + UInt16.ofNat (x.val + 1)) with
      registers := loadedRegisters s x }

/-- The state after an instruction, unless it fails. -/
def run (i : Instruction) (s : State) : Except Fault State :=
  match i.perform s with
  | (after, .ok ()) => .ok after
  | (_, .error f) => .error f

end ChipEight.Instruction
