import ChipEight.Memory
/-!
# ROM files

What a host finds where it was told to look for a ROM.
-/
namespace ChipEight.Host

/-- An error of the operating system. -/
structure SystemError where
  text : String
  code : Nat
  deriving DecidableEq, Repr

namespace SystemError

def noSuchFile : SystemError := ⟨"No such file or directory", 2⟩

def message (e : SystemError) : String := e.text ++ " (os error " ++ toString e.code ++ ")"

end SystemError

inductive RomFile where
  | contents (rom : Rom)
  /-- The file could not be opened. -/
  | unopened (e : SystemError)
  /-- The file was opened, but not all of it could be read. -/
  | unreadable (e : SystemError)
  deriving DecidableEq, Repr

end ChipEight.Host
