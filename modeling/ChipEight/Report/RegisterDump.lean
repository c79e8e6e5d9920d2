import ChipEight.Machine.Basic
/-!
# The register dump

The registers, timers, stack and keys of a machine, the opcodes of its latest steps, and the opcodes
that come next in memory, the one at the program counter marked by `>` (the specification, §10.4). Each
line ends with a line end.
-/
namespace ChipEight.Report

namespace RegisterDump

open Text

/-- How many opcodes to come are shown at most. -/
def ahead : Nat := 15

/-- A register with its value. -/
def registerCell (s : State) (r : Register) : String :=
  "V" ++ Hex.padded 1 r.val ++ "=" ++ Hex.padded 2 (s.v r).toNat

/-- Eight registers on a line, from `first` on. -/
def registerLine (s : State) (first : Nat) : String :=
  " ".intercalate ((List.range 8).map fun k => registerCell s (Fin.ofNat 16 (first + k)))

def counterLine (s : State) : String :=
  "I=" ++ Hex.padded 3 s.index.toNat ++ " PC=" ++ Hex.padded 3 s.pc.toNat
    ++ " DT=" ++ Hex.padded 2 s.delay.value.toNat ++ " ST=" ++ Hex.padded 2 s.sound.value.toNat

/-- The return addresses, the earliest first. -/
def stackLine (s : State) : String :=
  "stack: [" ++ ", ".intercalate (s.stack.toList.map fun a => Hex.padded 3 a.toNat) ++ "]"

def keysLine (s : State) : String :=
  "keys: [" ++ " ".intercalate (s.keypad.down.map Key.name) ++ "]"

def refusalLines (s : State) : List String :=
  if s.refused then ["last opcode could not be executed"] else []

/-- An opcode and its assembly text. -/
def opcodeCell (op : Opcode) : String := Hex.padded 4 op.toNat ++ "  " ++ op.assembly

def recentLine (op : Opcode) : String := "        " ++ opcodeCell op

def nextLine (marker : String) (next : UInt16 × Opcode) : String :=
  "  " ++ marker ++ " " ++ Hex.padded 3 next.1.toNat ++ " " ++ opcodeCell next.2

/-- The opcodes to come; the first lies at the program counter. -/
def nextLines : List (UInt16 × Opcode) → List String
  | [] => []
  | first :: rest => nextLine ">" first :: rest.map (nextLine " ")

def lines (m : Machine) : List String :=
  [registerLine m.state 0, registerLine m.state 8, counterLine m.state, stackLine m.state,
    keysLine m.state]
    ++ refusalLines m.state
    ++ "recent:" :: m.pastOpcodes.map recentLine
    ++ "next:" :: nextLines (m.opcodesFrom m.state.pc ahead)

end RegisterDump

/-- The register dump of a machine. -/
def registerDump (m : Machine) : String :=
  String.join ((RegisterDump.lines m).map (· ++ "\n"))

end ChipEight.Report
