import ChipEight.Opcode
/-!
# The built-in font

A glyph for each hexadecimal digit, four pixels wide and five high, kept in memory below the place where
programs start (the specification, §3 and §4.3). Each byte is one row of a glyph, its high bit leftmost.
-/
namespace ChipEight.Font

/-- Where the font lies in memory. -/
def start : Nat := 0x50

/-- The rows of a glyph. -/
def glyphHeight : Nat := 5

def glyphs : Array UInt8 := #[
  0xF0, 0x90, 0x90, 0x90, 0xF0,
  0x20, 0x60, 0x20, 0x20, 0x70,
  0xF0, 0x10, 0xF0, 0x80, 0xF0,
  0xF0, 0x10, 0xF0, 0x10, 0xF0,
  0x90, 0x90, 0xF0, 0x10, 0x10,
  0xF0, 0x80, 0xF0, 0x10, 0xF0,
  0xF0, 0x80, 0xF0, 0x90, 0xF0,
  0xF0, 0x10, 0x20, 0x40, 0x40,
  0xF0, 0x90, 0xF0, 0x90, 0xF0,
  0xF0, 0x90, 0xF0, 0x10, 0xF0,
  0xF0, 0x90, 0xF0, 0x90, 0x90,
  0xE0, 0x90, 0xE0, 0x90, 0xE0,
  0xF0, 0x80, 0x80, 0x80, 0xF0,
  0xE0, 0x90, 0x90, 0x90, 0xE0,
  0xF0, 0x80, 0xF0, 0x80, 0xF0,
  0xF0, 0x80, 0xF0, 0x80, 0x80]

/-- Where the glyph of a digit lies. -/
def glyph (digit : Nibble) : UInt16 := UInt16.ofNat (start + digit.val * glyphHeight)

end ChipEight.Font
