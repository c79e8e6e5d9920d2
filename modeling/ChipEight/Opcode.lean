/-!
# Opcodes

An opcode is a 16-bit word, read from memory high byte first (the specification, §4.1 and §6). Its four
hexadecimal digits are named by what they carry: the family, then `X` and `Y` for registers and `N` for a
count. `NN` is the low byte and `NNN` the low twelve bits (§4.3). Every field can be read off every
opcode; which ones mean something depends on the instruction.
-/
namespace ChipEight

/-- A hexadecimal digit, or the place of one among sixteen things. -/
abbrev Nibble := Fin 16

instance Nibble.neZero : @NeZero Nat Zero.ofOfNat0 16 := ⟨by decide⟩

/-- One of the sixteen data registers, `V0` to `VF`. -/
abbrev Register := Nibble

/-- A place in memory. -/
abbrev Address := Fin 4096

instance Address.neZero : @NeZero Nat Zero.ofOfNat0 4096 := ⟨by decide⟩

/-- The place that a 16-bit value names: memory repeats every 4096 bytes. -/
def Address.wrap (w : UInt16) : Address := Fin.ofNat 4096 w.toNat

def Address.toWord (a : Address) : UInt16 := UInt16.ofNat a.val

abbrev Opcode := UInt16

namespace Opcode

/-- An opcode from its two bytes, the high one first. -/
def ofBytes (high low : UInt8) : Opcode := UInt16.ofNat (high.toNat * 256 + low.toNat)

/-- The first digit, which picks most instructions by itself. -/
def family (op : Opcode) : Nibble := Fin.ofNat 16 (op.toNat / 4096)

/-- The second digit. -/
def x (op : Opcode) : Register := Fin.ofNat 16 (op.toNat / 256)

/-- The third digit. -/
def y (op : Opcode) : Register := Fin.ofNat 16 (op.toNat / 16)

/-- The last digit. -/
def n (op : Opcode) : Nibble := Fin.ofNat 16 op.toNat

/-- The low byte. -/
def nn (op : Opcode) : UInt8 := UInt8.ofNat op.toNat

/-- The low twelve bits. -/
def nnn (op : Opcode) : Address := Fin.ofNat 4096 op.toNat

/-- The four digits, the family first. -/
def nibbles (op : Opcode) : List Nibble := [op.family, op.x, op.y, op.n]

/-- The opcode with the given family and low twelve bits. -/
def withAddress (family : Nibble) (a : Address) : Opcode :=
  UInt16.ofNat (family.val * 4096 + a.val)

/-- The opcode with the given family, second digit and low byte. -/
def withByte (family : Nibble) (x : Register) (b : UInt8) : Opcode :=
  UInt16.ofNat (family.val * 4096 + x.val * 256 + b.toNat)

/-- The opcode with the given four digits. -/
def withDigits (family : Nibble) (x y : Register) (n : Nibble) : Opcode :=
  UInt16.ofNat (family.val * 4096 + x.val * 256 + y.val * 16 + n.val)

/-- The four digits make up the opcode. -/
theorem withDigits_fields (op : Opcode) : withDigits op.family op.x op.y op.n = op := by
  have := op.toNat_lt
  rw [← UInt16.toNat_inj]
  simp only [withDigits, family, x, y, n, UInt16.toNat_ofNat', Fin.val_ofNat]
  omega

end Opcode

end ChipEight
