import ChipEight.Text.Hex
/-!
# Faults

What can stop a machine (the specification, §7 and §10.2). Ordinary program data never does: an opcode
that no instruction covers is refused, which is no fault.
-/
namespace ChipEight

inductive Fault where
  /-- A return at `site` found no return address. -/
  | stackUnderflow (site : UInt16)
  /-- A call at `site` found the call stack at its limit. -/
  | stackOverflow (site : UInt16) (limit : Nat)
  /-- The opcode at `pc` would run past the end of memory. -/
  | pcOutOfBounds (pc : UInt16)
  deriving DecidableEq, Repr

def Fault.message : Fault → String
  | stackUnderflow site =>
    "return at " ++ Text.Hex.marked 3 site.toNat ++ " with an empty call stack"
  | stackOverflow site limit =>
    "call at " ++ Text.Hex.marked 3 site.toNat ++ " exceeds the maximum stack depth of "
      ++ toString limit
  | pcOutOfBounds pc =>
    "cannot fetch an opcode at " ++ Text.Hex.marked 3 pc.toNat
      ++ ", it runs past the end of memory"

end ChipEight
