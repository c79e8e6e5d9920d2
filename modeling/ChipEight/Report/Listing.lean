import ChipEight.Machine.Basic
/-!
# Listings

The opcodes of a program in the order of memory, each with its address, its assembly text and what it
does (the specification, §10.4). Each line ends with a line end.
-/
namespace ChipEight.Report

open Text

namespace Listing

def line (a : UInt16) (op : Opcode) : String :=
  Hex.padded 3 a.toNat ++ "  " ++ Hex.padded 4 op.toNat ++ "  " ++ padRight 16 op.assembly
    ++ " ; " ++ (Instruction.decode op).form.description

/-- The lines for the `size` bytes from the start of a program on; an odd byte at the end counts as
the high byte of an opcode. -/
def lines (m : Machine) (size : Nat) : List String :=
  (m.opcodesFrom Rom.start ((size + 1) / 2)).map fun entry => line entry.1 entry.2

end Listing

/-- The listing of the `size` bytes from the start of a program on. -/
def listing (m : Machine) (size : Nat) : String :=
  String.join ((Listing.lines m size).map (· ++ "\n"))

end ChipEight.Report
