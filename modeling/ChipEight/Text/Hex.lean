/-!
# Hexadecimal text

Upper-case digits, most significant first. `padded` fills up to a least width with zeros and never
cuts, so a number that needs more digits than the width keeps them all.
-/
namespace ChipEight.Text.Hex

/-- The digit of a number below sixteen. -/
def digit (n : Nat) : Char :=
  if n < 10 then Char.ofNat (48 + n) else Char.ofNat (55 + n)

/-- The digits of a number, one `0` for zero and no other leading zero. -/
def digits (n : Nat) : List Char :=
  if n < 16 then [digit n] else digits (n / 16) ++ [digit (n % 16)]

/-- A number in at least `width` digits. -/
def padded (width n : Nat) : String :=
  String.ofList ((digits n).leftpad width '0')

/-- A number in at least `width` digits, marked as hexadecimal by a leading `0x`. -/
def marked (width n : Nat) : String :=
  "0x" ++ padded width n

/-- Bytes, two digits each, with nothing between them. -/
def ofBytes (bytes : List UInt8) : String :=
  String.join (bytes.map fun b => padded 2 b.toNat)

/-- The value of an upper-case digit. -/
def value? (c : Char) : Option Nat :=
  if '0' ≤ c ∧ c ≤ '9' then some (c.toNat - '0'.toNat)
  else if 'A' ≤ c ∧ c ≤ 'F' then some (c.toNat - 'A'.toNat + 10)
  else none

/-- The number that digits stand for, the most significant first. -/
def read? (text : List Char) : Option Nat :=
  text.foldlM (fun acc c => (value? c).map (acc * 16 + ·)) 0

end ChipEight.Text.Hex
