import ChipEight.CallStack
import ChipEight.Config
import ChipEight.Fault
import ChipEight.Font
import ChipEight.Host.Event
import ChipEight.Host.KeyPress
import ChipEight.Host.Options
import ChipEight.Host.RomFile
import ChipEight.Host.Run
import ChipEight.Instruction.Assembler
import ChipEight.Instruction.Assembly
import ChipEight.Instruction.Basic
import ChipEight.Instruction.Effect
import ChipEight.Instruction.Form
import ChipEight.Keypad
import ChipEight.LogLevel
import ChipEight.Machine.Basic
import ChipEight.Machine.Event
import ChipEight.Machine.Frame
import ChipEight.Machine.Operation
import ChipEight.Main
import ChipEight.Memory
import ChipEight.Opcode
import ChipEight.Random.ChaCha
import ChipEight.Random.Stream
import ChipEight.Report.Listing
import ChipEight.Report.RegisterDump
import ChipEight.Screen
import ChipEight.State
import ChipEight.Text.Character
import ChipEight.Text.Hex
import ChipEight.Text.Numeral
import ChipEight.Text.Quoted
import ChipEight.Timer
import ChipEight.Proofs.Instruction.Footprint
import ChipEight.Proofs.Instruction.Pattern
import ChipEight.Proofs.Machine.Change
import ChipEight.Proofs.Machine.Failure
import ChipEight.Proofs.Machine.Remembering
import ChipEight.Proofs.Machine.Run
import ChipEight.Proofs.Machine.Timeline
import ChipEight.Proofs.Machine.Redraw
import ChipEight.Proofs.Machine.Subroutine
import ChipEight.Proofs.Instruction.Address
import ChipEight.Proofs.Machine.Address
import ChipEight.Proofs.Machine.Refusal
import ChipEight.Proofs.Machine.Lockstep
import ChipEight.Proofs.Machine.Mirror
import ChipEight.Proofs.Machine.Recall
import ChipEight.Proofs.Machine.Policy
import ChipEight.Proofs.Instruction.Reach
import ChipEight.Proofs.Memory
import ChipEight.Proofs.Random
import ChipEight.Proofs.Screen
import ChipEight.Proofs.Machine.Chronicle
import ChipEight.Proofs.Machine.Picture
import ChipEight.Proofs.Machine.Replay
import ChipEight.Proofs.Machine.Chance
import ChipEight.Proofs.Keypad
import ChipEight.Proofs.Host.Beeps
import ChipEight.Proofs.Host.HeldKeys
import ChipEight.Proofs.Machine.Trail
import ChipEight.Proofs.Machine.Due
import ChipEight.Proofs.Machine.Cycle
import ChipEight.Proofs.Machine.Countdown
import ChipEight.Proofs.Sprite
import ChipEight.Proofs.Instruction.Arithmetic
import ChipEight.Proofs.Instruction.Drawing
import ChipEight.Proofs.Instruction.Transfer
import ChipEight.Proofs.Machine.Frame
import ChipEight.Proofs.Machine.Waiting
import ChipEight.Proofs.Machine.Signal
import ChipEight.Proofs.Machine.Program
import ChipEight.Proofs.Host.KeyPress
import ChipEight.Proofs.Keypad.History
import ChipEight.Proofs.Screen.View
import ChipEight.Proofs.Screen.Cells
import ChipEight.Proofs.Report.Listing
import ChipEight.Proofs.Report.RegisterDump
