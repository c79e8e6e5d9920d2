import ChipEight.Host.Run
/-!
# The command

Reads the command line and the ROM file, runs, and prints what the run reports.
-/
namespace ChipEight.Command

open Host

/-- The system's text and code of an error. -/
def systemError : IO.Error → SystemError
  | .noFileOrDirectory _ code text => ⟨text, code.toNat⟩
  | .permissionDenied _ code text => ⟨text, code.toNat⟩
  | .inappropriateType _ code text => ⟨text, code.toNat⟩
  | .invalidArgument _ code text => ⟨text, code.toNat⟩
  | .hardwareFault code text => ⟨text, code.toNat⟩
  | .otherError code text => ⟨text, code.toNat⟩
  | e => ⟨e.toString, 0⟩

/-- Opens and reads a ROM file. -/
def readRom (file : String) : IO RomFile := do
  match ← (IO.FS.Handle.mk file .read).toBaseIO with
  | .error e => return .unopened (systemError e)
  | .ok handle =>
    match ← handle.readBinToEnd.toBaseIO with
    | .error e => return .unreadable (systemError e)
    | .ok bytes => return .contents ⟨bytes.data⟩

/-- A stream under a key drawn by chance, each word of the key from four bytes, the low one first. -/
def drawStream : IO Random.Stream := do
  let bytes ← IO.getRandomBytes 32
  let word (k : Fin 8) : UInt32 :=
    (bytes.data.toList.drop (4 * k.val)).take 4 |>.foldr (fun b acc => acc * 256 + b.toUInt32) 0
  return .ofKey (Vector.ofFn word)

/-- Carries out a command line; the answer is the exit code. -/
def perform (arguments : List String) : IO UInt32 := do
  match Options.read arguments with
  | .error refusal =>
    IO.eprintln ("error: " ++ refusal.message)
    return 2
  | .ok options =>
    let report := run options (← readRom options.rom) (← drawStream)
    for line in report.shownLog options.logLevel do
      IO.eprintln line
    IO.print report.output
    for line in report.failureLines do
      IO.eprintln line
    return UInt32.ofNat report.exitCode

end ChipEight.Command

def main (arguments : List String) : IO UInt32 := ChipEight.Command.perform arguments
