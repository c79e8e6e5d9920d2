import ChipEight.Text.Character
import ChipEight.Text.Hex
/-!
# Quoted text

A text or a character between quotes, in a form that shows every character: the quote in use and the
backslash after a backslash, four control characters by a letter, and every other character that is
not printable by its code point in lower-case hexadecimal between braces.
-/
namespace ChipEight.Text.Quoted

/-- A code point in hexadecimal between braces, after a backslash and a `u`. -/
def codePoint (c : Char) : List Char :=
  ['\\', 'u', '\x7b'] ++ (Hex.digits c.toNat).map Char.toLower ++ ['\x7d']

/-- One character inside the quotes `quote`. -/
def encode (quote c : Char) : List Char :=
  if c = quote ∨ c = '\\' then ['\\', c]
  else if c = '\x00' then ['\\', '0']
  else if c = '\t' then ['\\', 't']
  else if c = '\r' then ['\\', 'r']
  else if c = '\n' then ['\\', 'n']
  else if isPrintable c then [c]
  else codePoint c

/-- A text between double quotes. -/
def string (text : List Char) : String :=
  String.ofList (['"'] ++ text.flatMap (encode '"') ++ ['"'])

/-- A character between single quotes. -/
def char (c : Char) : String :=
  String.ofList (['\''] ++ encode '\'' c ++ ['\''])

end ChipEight.Text.Quoted
