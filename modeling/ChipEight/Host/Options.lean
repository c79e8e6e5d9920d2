import ChipEight.Config
import ChipEight.Host.KeyPress
import ChipEight.LogLevel
/-!
# Options of a run

What the command line asks for (the specification, §10.4). An option is written with two dashes and its
name, or with one dash and a letter if it has one; a value follows after `=` or as the next argument.
Letters can be joined behind one dash, and a bare `--` ends the options. The one other argument is the
ROM's file.
-/
namespace ChipEight.Host

open Text

structure Options where
  rom : String
  /-- The frames to run, sixty for each emulated second. -/
  frames : Nat
  instructionsPerFrame : Nat
  seed : Option UInt64
  maxStackDepth : Nat
  /-- Stop on stack faults. -/
  strict : Bool
  presses : List KeyPress
  /-- List the ROM and do not run it. -/
  disassemble : Bool
  verbosity : Nat
  deriving DecidableEq, Repr

namespace Options

/-- The options of a command line that only names a ROM. -/
def standard (rom : String) : Options where
  rom := rom
  frames := 60
  instructionsPerFrame := Config.standard.instructionsPerFrame
  seed := none
  maxStackDepth := Config.standard.maxStackDepth
  strict := false
  presses := []
  disassemble := false
  verbosity := 0

/-- The settings of the machine to run. -/
def config (o : Options) : Config :=
  { Config.standard with
    maxStackDepth := o.maxStackDepth
    strict := o.strict
    seed := o.seed
    instructionsPerFrame := o.instructionsPerFrame }

def logLevel (o : Options) : LogLevel := .ofVerbosity o.verbosity

/-- Why a command line cannot be understood. -/
inductive Refusal where
  | unknownOption (text : String)
  | missingValue (option : String)
  | unexpectedValue (option : String)
  | badValue (option value reason : String)
  | missingRom
  | surplusArgument (text : String)
  deriving DecidableEq, Repr

def Refusal.message : Refusal → String
  | unknownOption text => "unknown option " ++ text
  | missingValue option => "option " ++ option ++ " needs a value"
  | unexpectedValue option => "option " ++ option ++ " takes no value"
  | badValue option value reason =>
    "bad value " ++ Quoted.string value.toList ++ " for option " ++ option ++ ": " ++ reason
  | missingRom => "no ROM file is given"
  | surplusArgument text => "surplus argument " ++ text

/-- The options that take a value. -/
inductive Setting where
  | frames | instructionsPerFrame | seed | maxStackDepth | press
  deriving DecidableEq, Repr

/-- The options that stand alone. -/
inductive Switch where
  | strict | disassemble | verbose
  deriving DecidableEq, Repr

/-- An option by the name behind two dashes. -/
def named? : String → Option (Setting ⊕ Switch)
  | "frames" => some (.inl .frames)
  | "ips" => some (.inl .instructionsPerFrame)
  | "seed" => some (.inl .seed)
  | "max-stack-depth" => some (.inl .maxStackDepth)
  | "press" => some (.inl .press)
  | "strict" => some (.inr .strict)
  | "disassemble" => some (.inr .disassemble)
  | "verbose" => some (.inr .verbose)
  | _ => none

/-- An option by the letter behind one dash. -/
def lettered? : Char → Option (Setting ⊕ Switch)
  | 'f' => some (.inl .frames)
  | 'p' => some (.inl .press)
  | 'd' => some (.inr .disassemble)
  | 'v' => some (.inr .verbose)
  | _ => none

/-- Turns a switch on; each `verbose` counts. -/
def turnOn (o : Options) : Switch → Options
  | .strict => { o with strict := true }
  | .disassemble => { o with disassemble := true }
  | .verbose => { o with verbosity := o.verbosity + 1 }

/-- Reads the number that an option wants. -/
def readNumber (bound : Nat) (option : String) (value : List Char) : Except Refusal Nat :=
  match Numeral.read bound value with
  | .ok n => .ok n
  | .error reason => .error (.badValue option (.ofList value) reason.message)

/-- Gives a setting its value. Presses add up; of any other setting the last value counts. -/
def set (o : Options) (option : String) (value : List Char) : Setting → Except Refusal Options
  | .frames => do return { o with frames := ← readNumber UInt64.size option value }
  | .instructionsPerFrame => do
    return { o with instructionsPerFrame := ← readNumber UInt32.size option value }
  | .seed => do return { o with seed := some (.ofNat (← readNumber UInt64.size option value)) }
  | .maxStackDepth => do return { o with maxStackDepth := ← readNumber UInt64.size option value }
  | .press =>
    match KeyPress.read value with
    | .ok press => .ok { o with presses := o.presses ++ [press] }
    | .error refusal => .error (.badValue option (.ofList value) refusal.message)

/-- What an argument leaves open. -/
inductive Pending where
  | complete (o : Options)
  /-- The next argument is the value of a setting. -/
  | awaiting (o : Options) (option : String) (setting : Setting)

/-- Reads the letters behind one dash. A letter that takes a value takes the rest of the argument. -/
def readLetters (o : Options) : List Char → Except Refusal Pending
  | [] => .ok (.complete o)
  | c :: rest =>
    let option := "-" ++ String.singleton c
    match lettered? c, rest with
    | none, _ => .error (.unknownOption option)
    | some (.inr switch), rest => readLetters (o.turnOn switch) rest
    | some (.inl setting), [] => .ok (.awaiting o option setting)
    | some (.inl setting), '=' :: value => .complete <$> o.set option value setting
    | some (.inl setting), value => .complete <$> o.set option value setting

/-- Reads what stands behind two dashes. -/
def readName (o : Options) (text : List Char) : Except Refusal Pending :=
  let name := String.ofList (text.takeWhile (· != '='))
  let option := "--" ++ name
  match named? name, text.dropWhile (· != '=') with
  | none, _ => .error (.unknownOption option)
  | some (.inr switch), [] => .ok (.complete (o.turnOn switch))
  | some (.inr _), _ => .error (.unexpectedValue option)
  | some (.inl setting), [] => .ok (.awaiting o option setting)
  | some (.inl setting), _ :: value => .complete <$> o.set option value setting

/-- Takes an argument that is no option as the ROM's file. -/
def setRom (o : Options) (text : String) : Except Refusal Options :=
  if o.rom.isEmpty then .ok { o with rom := text } else .error (.surplusArgument text)

/-- Reads the arguments behind a bare `--`. -/
def readRest (o : Options) : List String → Except Refusal Options
  | [] => .ok o
  | text :: rest => do readRest (← o.setRom text) rest

/-- Reads one argument. -/
def readArgument (o : Options) (text : String) : Except Refusal Pending :=
  match text.toList with
  | '-' :: '-' :: name => o.readName name
  | '-' :: c :: letters => o.readLetters (c :: letters)
  | _ => .complete <$> o.setRom text

def readArguments (pending : Pending) : List String → Except Refusal Options
  | [] =>
    match pending with
    | .complete o => .ok o
    | .awaiting _ option _ => .error (.missingValue option)
  | text :: rest =>
    match pending with
    | .awaiting o option setting => do
      readArguments (.complete (← o.set option text.toList setting)) rest
    | .complete o =>
      if text = "--" then o.readRest rest
      else do readArguments (← o.readArgument text) rest

/-- Reads a command line. -/
def read (arguments : List String) : Except Refusal Options := do
  let o ← readArguments (.complete (standard "")) arguments
  if o.rom.isEmpty then .error .missingRom else .ok o

end Options

end ChipEight.Host
