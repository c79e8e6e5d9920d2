import ChipEight.Instruction.Assembly
/-!
# The assembler

Reads assembly text back. Many forms share a mnemonic, and an operand shows by its spelling what it is:
a byte has two hexadecimal digits, an address three and a whole opcode four.
-/
namespace ChipEight

/-- The digit that a character stands for. -/
def Operand.digit? (c : Char) : Option Nibble :=
  (Text.Hex.value? c).map (Fin.ofNat 16)

/-- Reads an operand. -/
def Operand.read? (text : List Char) : Option Operand :=
  match text with
  | ['I'] => some .index
  | ['[', 'I', ']'] => some .indirect
  | ['D', 'T'] => some .delayTimer
  | ['S', 'T'] => some .soundTimer
  | ['K'] => some .key
  | ['F'] => some .glyph
  | ['B'] => some .decimal
  | ['V', c] => (Operand.digit? c).map .register
  | ['0', 'x', a, b] => (Text.Hex.read? [a, b]).map fun n => .byte (UInt8.ofNat n)
  | ['0', 'x', a, b, c] => (Text.Hex.read? [a, b, c]).map fun n => .address (Fin.ofNat 4096 n)
  | ['0', 'x', a, b, c, d] => (Text.Hex.read? [a, b, c, d]).map fun n => .word (UInt16.ofNat n)
  | _ => (List.finRange 16).find? (fun n => (toString n.val).toList = text) |>.map .count

namespace Instruction

/-- The instruction with the given mnemonic and operands. -/
def ofParts? : String → List Operand → Option Instruction
  | "SYS", [.address a] => some (machineRoutine a)
  | "CLS", [] => some clear
  | "RET", [] => some ret
  | "JP", [.address a] => some (jump a)
  | "JP", [.register 0, .address a] => some (jumpOffset a)
  | "CALL", [.address a] => some (call a)
  | "SE", [.register x, .byte b] => some (skipEqByte x b)
  | "SE", [.register x, .register y] => some (skipEq x y)
  | "SNE", [.register x, .byte b] => some (skipNeByte x b)
  | "SNE", [.register x, .register y] => some (skipNe x y)
  | "LD", [.register x, .byte b] => some (loadByte x b)
  | "LD", [.register x, .register y] => some (copy x y)
  | "LD", [.index, .address a] => some (loadIndex a)
  | "LD", [.register x, .delayTimer] => some (readDelay x)
  | "LD", [.register x, .key] => some (waitKey x)
  | "LD", [.delayTimer, .register x] => some (setDelay x)
  | "LD", [.soundTimer, .register x] => some (setSound x)
  | "LD", [.glyph, .register x] => some (loadGlyph x)
  | "LD", [.decimal, .register x] => some (storeDecimal x)
  | "LD", [.indirect, .register x] => some (storeRegisters x)
  | "LD", [.register x, .indirect] => some (loadRegisters x)
  | "ADD", [.register x, .byte b] => some (addByte x b)
  | "ADD", [.register x, .register y] => some (add x y)
  | "ADD", [.index, .register x] => some (addIndex x)
  | "OR", [.register x, .register y] => some (or x y)
  | "AND", [.register x, .register y] => some (and x y)
  | "XOR", [.register x, .register y] => some (xor x y)
  | "SUB", [.register x, .register y] => some (sub x y)
  | "SUBN", [.register x, .register y] => some (subFrom x y)
  | "SHR", [.register x, .register y] => some (shiftRight x y)
  | "SHL", [.register x, .register y] => some (shiftLeft x y)
  | "RND", [.register x, .byte b] => some (random x b)
  | "DRW", [.register x, .register y, .count n] => some (draw x y n)
  | "SKP", [.register x] => some (skipKeyDown x)
  | "SKNP", [.register x] => some (skipKeyUp x)
  | "???", [.word op] => some (unknown op)
  | _, _ => none

/-- The operands in a text, each but the first after a comma and a blank. -/
def splitOperands : List Char → List (List Char)
  | [] => [[]]
  | ',' :: ' ' :: rest => [] :: splitOperands rest
  | c :: rest =>
    match splitOperands rest with
    | [] => [[c]]
    | first :: others => (c :: first) :: others

/-- Reads the operands behind a mnemonic. -/
def readOperands? : List Char → Option (List Operand)
  | [] => some []
  | _ :: rest => (splitOperands rest).mapM Operand.read?

/-- Reads an instruction from its assembly text. -/
def assemble? (text : String) : Option Instruction := do
  let operands ← readOperands? (text.toList.dropWhile (· != ' '))
  ofParts? (String.ofList (text.toList.takeWhile (· != ' '))) operands

end Instruction

/-- Reads an opcode from its assembly text. -/
def Opcode.assemble? (text : String) : Option Opcode :=
  (Instruction.assemble? text).map Instruction.encode

end ChipEight
