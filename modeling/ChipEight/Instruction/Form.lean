import ChipEight.Instruction.Basic
import ChipEight.Text.Hex
/-!
# Instruction forms

The form of an instruction is the instruction without its operands. The catalogue gives each form the
pattern of its opcodes, its mnemonic and a one-line description (the specification, §4.3 and §10.4). In
a pattern a hexadecimal digit stands for itself and `X`, `Y` and `N` for any digit; `covers` tells
whether an opcode fits.
-/
namespace ChipEight

inductive Form where
  | machineRoutine | clear | ret | jump | call
  | skipEqByte | skipNeByte | skipEq | loadByte | addByte
  | copy | or | and | xor | add | sub | shiftRight | subFrom | shiftLeft
  | skipNe | loadIndex | jumpOffset | random | draw
  | skipKeyDown | skipKeyUp
  | readDelay | waitKey | setDelay | setSound | addIndex | loadGlyph | storeDecimal
  | storeRegisters | loadRegisters
  | unknown
  deriving DecidableEq, Repr

namespace Form

/-- What the catalogue says about a form. -/
structure Entry where
  pattern : String
  mnemonic : String
  description : String
  deriving DecidableEq, Repr

def entry : Form → Entry
  | machineRoutine =>
    ⟨"0NNN", "SYS", "Execute machine language subroutine at NNN (unsupported)"⟩
  | clear => ⟨"00E0", "CLS", "Clear the screen"⟩
  | ret => ⟨"00EE", "RET", "Return from a subroutine"⟩
  | jump => ⟨"1NNN", "JP", "Jump to address NNN"⟩
  | call => ⟨"2NNN", "CALL", "Execute subroutine starting at address NNN"⟩
  | skipEqByte => ⟨"3XNN", "SE", "Skip the following instruction if VX equals NN"⟩
  | skipNeByte => ⟨"4XNN", "SNE", "Skip the following instruction if VX does not equal NN"⟩
  | skipEq => ⟨"5XY0", "SE", "Skip the following instruction if VX equals VY"⟩
  | loadByte => ⟨"6XNN", "LD", "Store NN in VX"⟩
  | addByte => ⟨"7XNN", "ADD", "Add NN to VX"⟩
  | copy => ⟨"8XY0", "LD", "Store the value of VY in VX"⟩
  | or => ⟨"8XY1", "OR", "Set VX to VX OR VY"⟩
  | and => ⟨"8XY2", "AND", "Set VX to VX AND VY"⟩
  | xor => ⟨"8XY3", "XOR", "Set VX to VX XOR VY"⟩
  | add => ⟨"8XY4", "ADD", "Add VY to VX; VF = 1 on carry, else 0"⟩
  | sub => ⟨"8XY5", "SUB", "Subtract VY from VX; VF = 0 on borrow, else 1"⟩
  | shiftRight => ⟨"8XY6", "SHR", "Store VY shifted right one bit in VX; VF = old lsb"⟩
  | subFrom => ⟨"8XY7", "SUBN", "Set VX to VY minus VX; VF = 0 on borrow, else 1"⟩
  | shiftLeft => ⟨"8XYE", "SHL", "Store VY shifted left one bit in VX; VF = old msb"⟩
  | skipNe => ⟨"9XY0", "SNE", "Skip the following instruction if VX does not equal VY"⟩
  | loadIndex => ⟨"ANNN", "LD", "Store address NNN in I"⟩
  | jumpOffset => ⟨"BNNN", "JP", "Jump to address NNN + V0"⟩
  | random => ⟨"CXNN", "RND", "Set VX to a random number masked with NN"⟩
  | draw => ⟨"DXYN", "DRW", "Draw an N-byte sprite from I at (VX, VY); VF = collision"⟩
  | skipKeyDown => ⟨"EX9E", "SKP", "Skip the following instruction if key VX is pressed"⟩
  | skipKeyUp => ⟨"EXA1", "SKNP", "Skip the following instruction if key VX is not pressed"⟩
  | readDelay => ⟨"FX07", "LD", "Store the delay timer in VX"⟩
  | waitKey => ⟨"FX0A", "LD", "Wait for a keypress and store the key in VX"⟩
  | setDelay => ⟨"FX15", "LD", "Set the delay timer to VX"⟩
  | setSound => ⟨"FX18", "LD", "Set the sound timer to VX"⟩
  | addIndex => ⟨"FX1E", "ADD", "Add VX to I"⟩
  | loadGlyph => ⟨"FX29", "LD", "Set I to the font glyph for the digit in VX"⟩
  | storeDecimal => ⟨"FX33", "LD", "Store the decimal digits of VX at I, I+1 and I+2"⟩
  | storeRegisters => ⟨"FX55", "LD", "Store V0..=VX at I; I += X + 1"⟩
  | loadRegisters => ⟨"FX65", "LD", "Load V0..=VX from I; I += X + 1"⟩
  | unknown => ⟨"????", "???", "Unrecognized opcode"⟩

def pattern (f : Form) : String := f.entry.pattern

def mnemonic (f : Form) : String := f.entry.mnemonic

def description (f : Form) : String := f.entry.description

/-- Whether a character of a pattern allows a digit. -/
def allows (c : Char) (digit : Nibble) : Bool :=
  c = 'X' || c = 'Y' || c = 'N' || c = Text.Hex.digit digit.val

/-- Whether an opcode fits the pattern of a form. -/
def covers (f : Form) (op : Opcode) : Bool :=
  (f.pattern.toList.zip op.nibbles).all fun p => allows p.1 p.2

/-- Every form that has opcodes of its own, in the order of their patterns. -/
def all : List Form :=
  [machineRoutine, clear, ret, jump, call, skipEqByte, skipNeByte, skipEq, loadByte, addByte,
   copy, or, and, xor, add, sub, shiftRight, subFrom, shiftLeft, skipNe, loadIndex, jumpOffset,
   random, draw, skipKeyDown, skipKeyUp, readDelay, waitKey, setDelay, setSound, addIndex,
   loadGlyph, storeDecimal, storeRegisters, loadRegisters]

/-- Whether the machine refuses to carry the form out. -/
def isRefused : Form → Bool
  | machineRoutine | unknown => true
  | _ => false

theorem isRefused_iff (f : Form) : f.isRefused = true ↔ f = machineRoutine ∨ f = unknown := by
  cases f <;> decide

end Form

/-- An instruction without its operands. -/
def Instruction.form : Instruction → Form
  | machineRoutine _ => .machineRoutine
  | clear => .clear
  | ret => .ret
  | jump _ => .jump
  | call _ => .call
  | skipEqByte _ _ => .skipEqByte
  | skipNeByte _ _ => .skipNeByte
  | skipEq _ _ => .skipEq
  | loadByte _ _ => .loadByte
  | addByte _ _ => .addByte
  | copy _ _ => .copy
  | or _ _ => .or
  | and _ _ => .and
  | xor _ _ => .xor
  | add _ _ => .add
  | sub _ _ => .sub
  | shiftRight _ _ => .shiftRight
  | subFrom _ _ => .subFrom
  | shiftLeft _ _ => .shiftLeft
  | skipNe _ _ => .skipNe
  | loadIndex _ => .loadIndex
  | jumpOffset _ => .jumpOffset
  | random _ _ => .random
  | draw _ _ _ => .draw
  | skipKeyDown _ => .skipKeyDown
  | skipKeyUp _ => .skipKeyUp
  | readDelay _ => .readDelay
  | waitKey _ => .waitKey
  | setDelay _ => .setDelay
  | setSound _ => .setSound
  | addIndex _ => .addIndex
  | loadGlyph _ => .loadGlyph
  | storeDecimal _ => .storeDecimal
  | storeRegisters _ => .storeRegisters
  | loadRegisters _ => .loadRegisters
  | unknown _ => .unknown

end ChipEight
