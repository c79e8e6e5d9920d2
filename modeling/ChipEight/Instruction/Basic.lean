import ChipEight.Opcode
/-!
# Instructions

An instruction carries its operands. `decode` reads one off every opcode (the specification, §4.1) and
`encode` writes its opcode; `encode_decode` says that decoding loses nothing.
-/
namespace ChipEight

inductive Instruction where
  /-- Runs a machine-language routine, which this machine cannot do. -/
  | machineRoutine (a : Address)
  /-- Clears the screen. -/
  | clear
  /-- Returns from a subroutine. -/
  | ret
  /-- Continues at `a`. -/
  | jump (a : Address)
  /-- Calls the subroutine at `a`. -/
  | call (a : Address)
  /-- Skips the next instruction if `VX` is `b`. -/
  | skipEqByte (x : Register) (b : UInt8)
  /-- Skips the next instruction if `VX` is not `b`. -/
  | skipNeByte (x : Register) (b : UInt8)
  /-- Skips the next instruction if `VX` and `VY` are equal. -/
  | skipEq (x y : Register)
  /-- Sets `VX` to `b`. -/
  | loadByte (x : Register) (b : UInt8)
  /-- Adds `b` to `VX` and leaves the flag alone. -/
  | addByte (x : Register) (b : UInt8)
  /-- Sets `VX` to `VY`. -/
  | copy (x y : Register)
  | or (x y : Register)
  | and (x y : Register)
  | xor (x y : Register)
  /-- Adds `VY` to `VX`; the flag is the carry. -/
  | add (x y : Register)
  /-- Subtracts `VY` from `VX`; the flag is 0 on a borrow. -/
  | sub (x y : Register)
  /-- Sets `VX` to `VY` shifted right; the flag is the bit shifted out. -/
  | shiftRight (x y : Register)
  /-- Sets `VX` to `VY` minus `VX`; the flag is 0 on a borrow. -/
  | subFrom (x y : Register)
  /-- Sets `VX` to `VY` shifted left; the flag is the bit shifted out. -/
  | shiftLeft (x y : Register)
  /-- Skips the next instruction if `VX` and `VY` differ. -/
  | skipNe (x y : Register)
  /-- Sets `I` to `a`. -/
  | loadIndex (a : Address)
  /-- Continues at `a + V0`. -/
  | jumpOffset (a : Address)
  /-- Sets `VX` to a random byte masked with `b`. -/
  | random (x : Register) (b : UInt8)
  /-- Draws the `n` bytes at `I` as a sprite at `(VX, VY)`; the flag is the collision. -/
  | draw (x y : Register) (n : Nibble)
  /-- Skips the next instruction if the key named by `VX` is down. -/
  | skipKeyDown (x : Register)
  /-- Skips the next instruction if the key named by `VX` is up. -/
  | skipKeyUp (x : Register)
  /-- Sets `VX` to the delay timer. -/
  | readDelay (x : Register)
  /-- Waits for a key and sets `VX` to it. -/
  | waitKey (x : Register)
  /-- Sets the delay timer to `VX`. -/
  | setDelay (x : Register)
  /-- Sets the sound timer to `VX`. -/
  | setSound (x : Register)
  /-- Adds `VX` to `I`. -/
  | addIndex (x : Register)
  /-- Sets `I` to the glyph of the low digit of `VX`. -/
  | loadGlyph (x : Register)
  /-- Stores the three decimal digits of `VX` at `I`. -/
  | storeDecimal (x : Register)
  /-- Stores `V0` to `VX` at `I`, which moves past them. -/
  | storeRegisters (x : Register)
  /-- Loads `V0` to `VX` from `I`, which moves past them. -/
  | loadRegisters (x : Register)
  /-- An opcode that no pattern covers. -/
  | unknown (op : Opcode)
  deriving DecidableEq, Repr

namespace Instruction

/-- The instruction that an opcode stands for. -/
def decode (op : Opcode) : Instruction :=
  match op.family.val with
  | 0x0 => if op = 0x00E0 then clear else if op = 0x00EE then ret else machineRoutine op.nnn
  | 0x1 => jump op.nnn
  | 0x2 => call op.nnn
  | 0x3 => skipEqByte op.x op.nn
  | 0x4 => skipNeByte op.x op.nn
  | 0x5 => if op.n.val = 0 then skipEq op.x op.y else unknown op
  | 0x6 => loadByte op.x op.nn
  | 0x7 => addByte op.x op.nn
  | 0x8 =>
    match op.n.val with
    | 0x0 => copy op.x op.y
    | 0x1 => or op.x op.y
    | 0x2 => and op.x op.y
    | 0x3 => xor op.x op.y
    | 0x4 => add op.x op.y
    | 0x5 => sub op.x op.y
    | 0x6 => shiftRight op.x op.y
    | 0x7 => subFrom op.x op.y
    | 0xE => shiftLeft op.x op.y
    | _ => unknown op
  | 0x9 => if op.n.val = 0 then skipNe op.x op.y else unknown op
  | 0xA => loadIndex op.nnn
  | 0xB => jumpOffset op.nnn
  | 0xC => random op.x op.nn
  | 0xD => draw op.x op.y op.n
  | 0xE =>
    match op.nn.toNat with
    | 0x9E => skipKeyDown op.x
    | 0xA1 => skipKeyUp op.x
    | _ => unknown op
  | 0xF =>
    match op.nn.toNat with
    | 0x07 => readDelay op.x
    | 0x0A => waitKey op.x
    | 0x15 => setDelay op.x
    | 0x18 => setSound op.x
    | 0x1E => addIndex op.x
    | 0x29 => loadGlyph op.x
    | 0x33 => storeDecimal op.x
    | 0x55 => storeRegisters op.x
    | 0x65 => loadRegisters op.x
    | _ => unknown op
  | _ => unknown op

/-- The opcode that stands for an instruction. -/
def encode : Instruction → Opcode
  | machineRoutine a => .withAddress 0x0 a
  | clear => 0x00E0
  | ret => 0x00EE
  | jump a => .withAddress 0x1 a
  | call a => .withAddress 0x2 a
  | skipEqByte x b => .withByte 0x3 x b
  | skipNeByte x b => .withByte 0x4 x b
  | skipEq x y => .withDigits 0x5 x y 0x0
  | loadByte x b => .withByte 0x6 x b
  | addByte x b => .withByte 0x7 x b
  | copy x y => .withDigits 0x8 x y 0x0
  | or x y => .withDigits 0x8 x y 0x1
  | and x y => .withDigits 0x8 x y 0x2
  | xor x y => .withDigits 0x8 x y 0x3
  | add x y => .withDigits 0x8 x y 0x4
  | sub x y => .withDigits 0x8 x y 0x5
  | shiftRight x y => .withDigits 0x8 x y 0x6
  | subFrom x y => .withDigits 0x8 x y 0x7
  | shiftLeft x y => .withDigits 0x8 x y 0xE
  | skipNe x y => .withDigits 0x9 x y 0x0
  | loadIndex a => .withAddress 0xA a
  | jumpOffset a => .withAddress 0xB a
  | random x b => .withByte 0xC x b
  | draw x y n => .withDigits 0xD x y n
  | skipKeyDown x => .withByte 0xE x 0x9E
  | skipKeyUp x => .withByte 0xE x 0xA1
  | readDelay x => .withByte 0xF x 0x07
  | waitKey x => .withByte 0xF x 0x0A
  | setDelay x => .withByte 0xF x 0x15
  | setSound x => .withByte 0xF x 0x18
  | addIndex x => .withByte 0xF x 0x1E
  | loadGlyph x => .withByte 0xF x 0x29
  | storeDecimal x => .withByte 0xF x 0x33
  | storeRegisters x => .withByte 0xF x 0x55
  | loadRegisters x => .withByte 0xF x 0x65
  | unknown op => op

/-- Decoding loses nothing: the opcode can be written again from the instruction. -/
theorem encode_decode (op : Opcode) : (decode op).encode = op := by
  have bound := op.toNat_lt
  unfold decode
  repeat' split
  all_goals simp only [encode]
  case h_1.isTrue h => exact h.symm
  case h_1.isFalse.isTrue h => exact h.symm
  all_goals
    simp only [← UInt16.toNat_inj, Opcode.withAddress, Opcode.withByte, Opcode.withDigits,
      Opcode.family, Opcode.x, Opcode.y, Opcode.n, Opcode.nn, Opcode.nnn, UInt16.toNat_ofNat',
      UInt8.toNat_ofNat', UInt8.reduceToNat, Fin.val_ofNat] at *
  all_goals omega

end Instruction

end ChipEight
