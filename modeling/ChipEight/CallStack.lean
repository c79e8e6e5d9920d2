import ChipEight.Fault
/-!
# The call stack

Return addresses up to a limit (the specification, §10.3), so that a program that keeps calling cannot
fill the host's memory.
-/
namespace ChipEight

structure CallStack where
  /-- The most addresses that the stack may hold. -/
  limit : Nat
  /-- The return addresses, the latest first. -/
  frames : List UInt16
  deriving DecidableEq, Repr

namespace CallStack

def empty (limit : Nat) : CallStack := ⟨limit, []⟩

def depth (s : CallStack) : Nat := s.frames.length

/-- The return addresses, the earliest first. -/
def toList (s : CallStack) : List UInt16 := s.frames.reverse

/-- Puts a return address on top. A full stack refuses; the call to blame lies two bytes before the
address that it wanted to come back to. -/
def push (s : CallStack) (back : UInt16) : Except Fault CallStack :=
  if s.depth < s.limit then .ok { s with frames := back :: s.frames }
  else .error (.stackOverflow (back - 2) s.limit)

/-- The latest return address and the stack without it. -/
def pop? (s : CallStack) : Option (UInt16 × CallStack) :=
  match s.frames with
  | [] => none
  | back :: rest => some (back, { s with frames := rest })

end CallStack

end ChipEight
