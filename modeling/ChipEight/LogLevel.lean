/-!
# Levels of log messages

The least talkative level comes first. Asking for a level includes those before it (the specification,
§10.2).
-/
namespace ChipEight

inductive LogLevel where
  | warn | info | debug | trace
  deriving DecidableEq, Repr

namespace LogLevel

def name : LogLevel → String
  | warn => "WARN"
  | info => "INFO"
  | debug => "DEBUG"
  | trace => "TRACE"

def rank : LogLevel → Nat
  | warn => 0
  | info => 1
  | debug => 2
  | trace => 3

/-- The level that a number asks for, the most talkative one from three on. -/
def ofVerbosity : Nat → LogLevel
  | 0 => warn
  | 1 => info
  | 2 => debug
  | _ => trace

/-- Whether a message at level `l` is shown to a reader who asked for level `asked`. -/
def shownAt (asked l : LogLevel) : Bool := l.rank ≤ asked.rank

end LogLevel

end ChipEight
