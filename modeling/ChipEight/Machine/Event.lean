import ChipEight.Instruction.Assembly
import ChipEight.LogLevel
import ChipEight.State
import ChipEight.Text.Character
/-!
# What a machine logs

One message for each program loaded, opcode stepped over, opcode refused or skipped, and rewind (the
specification, §10.2).
-/
namespace ChipEight.Machine

inductive Event where
  /-- A whole program of `size` bytes was loaded. -/
  | loaded (size : Nat)
  /-- Of a program of `size` bytes only the first `kept` were loaded. -/
  | truncated (size kept : Nat)
  /-- The opcode at `pc` is about to be carried out. -/
  | stepping (op : Opcode) (registers : Registers) (index pc : UInt16)
  /-- An instruction was skipped because of a fault. -/
  | skipped (fault : Fault)
  /-- An opcode that cannot be carried out was passed over. -/
  | refused (op : Opcode)
  /-- A step was undone, and `left` more can be. -/
  | rewound (pc : UInt16) (left : Nat)
  deriving DecidableEq

namespace Event

open Text

def level : Event → LogLevel
  | loaded _ | truncated _ _ | rewound _ _ => .debug
  | stepping _ _ _ _ => .trace
  | skipped _ | refused _ => .warn

def text : Event → String
  | loaded size =>
    "loaded a " ++ toString size ++ " byte ROM at " ++ Hex.marked 3 Rom.start.toNat
  | truncated size kept =>
    "ROM is " ++ toString size ++ " bytes but only " ++ toString kept
      ++ " fit in program space, the rest was dropped"
  | stepping op registers index pc =>
    Hex.padded 4 op.toNat ++ " " ++ padRight 16 op.assembly
      ++ " v[" ++ ", ".intercalate (registers.toList.map fun b => Hex.padded 2 b.toNat)
      ++ "] i" ++ Hex.padded 3 index.toNat ++ " pc" ++ Hex.padded 3 pc.toNat
  | skipped fault => fault.message ++ ", skipping it"
  | refused op =>
    Hex.padded 4 op.toNat ++ " (" ++ op.assembly ++ ") can't be executed, ignoring it"
  | rewound pc left =>
    "rewound to pc " ++ Hex.marked 3 pc.toNat ++ ", " ++ toString left ++ " states left"

end Event

end ChipEight.Machine
