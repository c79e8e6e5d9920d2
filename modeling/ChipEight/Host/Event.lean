import ChipEight.Machine.Event
/-!
# What a run logs
-/
namespace ChipEight.Host

inductive Event where
  | machine (e : Machine.Event)
  | romLoaded (size : Nat) (file : String)
  | pressing (frame : Nat) (k : Key)
  | beep (frame : Nat)
  | beepStopped (frame : Nat)
  | displayUpdated (frame : Nat)
  | waitingForKey (frame : Nat)
  deriving DecidableEq

namespace Event

def level : Event → LogLevel
  | machine e => e.level
  | romLoaded _ _ | beep _ | beepStopped _ => .info
  | pressing _ _ | displayUpdated _ | waitingForKey _ => .debug

def inFrame (frame : Nat) (text : String) : String := "frame " ++ toString frame ++ ": " ++ text

def text : Event → String
  | machine e => e.text
  | romLoaded size file => "loaded " ++ toString size ++ " bytes from " ++ file
  | pressing frame k => inFrame frame ("pressing " ++ k.name)
  | beep frame => inFrame frame "beep"
  | beepStopped frame => inFrame frame "beep stopped"
  | displayUpdated frame => inFrame frame "display updated"
  | waitingForKey frame => inFrame frame "waiting for a key"

/-- The message as it is shown, its level in front. -/
def line (e : Event) : String := e.level.name ++ " " ++ e.text

end Event

end ChipEight.Host
