import ChipEight.Instruction.Form
import ChipEight.Text.Hex
/-!
# Assembly text

An instruction is written as its mnemonic and, after a blank, its operands with commas between them, as
in `ADD V1, V2` (the specification, §10.4). Some operands are not in the opcode but belong to the form,
such as the `I` of `LD I, 0x050`. The text tells the instruction: `assemble?` in the module `Assembler`
reads it back.
-/
namespace ChipEight

/-- An operand as it is written. -/
inductive Operand where
  | register (r : Register)
  | address (a : Address)
  | byte (b : UInt8)
  /-- The height of a sprite. -/
  | count (n : Nibble)
  /-- A whole opcode. -/
  | word (op : Opcode)
  /-- The index register. -/
  | index
  /-- The memory that the index register points at. -/
  | indirect
  | delayTimer | soundTimer
  /-- The next key. -/
  | key
  /-- The glyph of a digit. -/
  | glyph
  /-- The decimal digits. -/
  | decimal
  deriving DecidableEq, Repr

def Operand.text : Operand → String
  | register r => "V" ++ Text.Hex.padded 1 r.val
  | address a => Text.Hex.marked 3 a.val
  | byte b => Text.Hex.marked 2 b.toNat
  | count n => toString n.val
  | word op => Text.Hex.marked 4 op.toNat
  | index => "I"
  | indirect => "[I]"
  | delayTimer => "DT"
  | soundTimer => "ST"
  | key => "K"
  | glyph => "F"
  | decimal => "B"

namespace Instruction

/-- The operands of an instruction, in the order in which they are written. -/
def operands : Instruction → List Operand
  | clear | ret => []
  | machineRoutine a | jump a | call a => [.address a]
  | skipEqByte x b | skipNeByte x b | loadByte x b | addByte x b | random x b =>
    [.register x, .byte b]
  | skipEq x y | skipNe x y | copy x y | or x y | and x y | xor x y | add x y | sub x y
  | shiftRight x y | subFrom x y | shiftLeft x y => [.register x, .register y]
  | loadIndex a => [.index, .address a]
  | jumpOffset a => [.register 0, .address a]
  | draw x y n => [.register x, .register y, .count n]
  | skipKeyDown x | skipKeyUp x => [.register x]
  | readDelay x => [.register x, .delayTimer]
  | waitKey x => [.register x, .key]
  | setDelay x => [.delayTimer, .register x]
  | setSound x => [.soundTimer, .register x]
  | addIndex x => [.index, .register x]
  | loadGlyph x => [.glyph, .register x]
  | storeDecimal x => [.decimal, .register x]
  | storeRegisters x => [.indirect, .register x]
  | loadRegisters x => [.register x, .indirect]
  | unknown op => [.word op]

/-- The assembly text of an instruction. -/
def assembly (i : Instruction) : String :=
  match i.operands with
  | [] => i.form.mnemonic
  | os => i.form.mnemonic ++ " " ++ ", ".intercalate (os.map Operand.text)

end Instruction

/-- The assembly text of an opcode. -/
def Opcode.assembly (op : Opcode) : String := (Instruction.decode op).assembly

end ChipEight
