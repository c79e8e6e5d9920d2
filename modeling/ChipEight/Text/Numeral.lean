/-!
# Unsigned decimal numerals

A numeral is an optional `+` and at least one ASCII digit; leading zeros are free. Reading goes left
to right and stops at the first character where no numeral below the bound can be meant any more.
-/
namespace ChipEight.Text.Numeral

/-- Why a text is no numeral below the bound. -/
inductive Refusal where
  | empty | invalidDigit | tooLarge
  deriving DecidableEq, Repr

def Refusal.message : Refusal → String
  | .empty => "cannot parse integer from empty string"
  | .invalidDigit => "invalid digit found in string"
  | .tooLarge => "number too large to fit in target type"

/-- The value of an ASCII digit. -/
def digit? (c : Char) : Option Nat :=
  if '0' ≤ c ∧ c ≤ '9' then some (c.toNat - '0'.toNat) else none

/-- Reads on from the value `acc` of the digits so far. A character that is no digit is refused
before the size of the number is looked at. -/
def readDigits (bound acc : Nat) : List Char → Except Refusal Nat
  | [] => .ok acc
  | c :: rest =>
    match digit? c with
    | none => .error .invalidDigit
    | some d =>
      if acc * 10 + d < bound then readDigits bound (acc * 10 + d) rest else .error .tooLarge

/-- Reads a whole text as a number below `bound`. A sign with nothing after it is an invalid digit,
and so is a `-` anywhere. -/
def read (bound : Nat) : List Char → Except Refusal Nat
  | [] => .error .empty
  | ['+'] => .error .invalidDigit
  | '+' :: rest => readDigits bound 0 rest
  | text => readDigits bound 0 text

end ChipEight.Text.Numeral
