/-!
# The screen

A picture of 64 by 32 pixels, each lit or not. Sprites are drawn by exchange (the specification, §4.4):
a sprite makes a picture of its own, `stamp`, and drawing it flips exactly the pixels that are lit there.
`pixel?_flip` and `pixel?_stamp` say this pixel by pixel.
-/
namespace ChipEight

/-- A row is one word; its most significant bit is the leftmost pixel. -/
structure Screen where
  rows : Vector (BitVec 64) 32
  deriving DecidableEq

namespace Screen

def width : Nat := 64

def height : Nat := 32

def blank : Screen := ⟨Vector.replicate 32 0⟩

/-- Whether the pixel in column `x` of row `y` is lit, if there is such a pixel. -/
def pixel? (s : Screen) (x y : Nat) : Option Bool :=
  if h : x < 64 ∧ y < 32 then
    have := h.2
    some (s.rows[y].getMsbD x)
  else none

/-- The pixels of a row, from left to right. -/
def rowPixels (row : BitVec 64) : List Bool :=
  (List.range 64).map row.getMsbD

/-- All pixels, row by row from the top left. -/
def pixels (s : Screen) : List Bool := s.rows.toList.flatMap rowPixels

def isBlank (s : Screen) : Bool := s.rows.all (· == 0)

/-- A byte as part of a row, its high bit in column `x`; what lies beyond the right edge is lost. -/
def rowOf (b : UInt8) (x : Nat) : BitVec 64 := (b.toBitVec ++ (0 : BitVec 56)) >>> x

/-- The picture that a sprite makes alone, its top left corner at `(x, y)`. The corner wraps around
the screen, and the sprite is cut off at the right and bottom edges. -/
def stamp (x y : UInt8) (sprite : List UInt8) : Screen :=
  ⟨Vector.ofFn fun r =>
    if r.val < y.toNat % 32 then 0
    else rowOf (sprite.getD (r.val - y.toNat % 32) 0) (x.toNat % 64)⟩

/-- The pixels that are lit in exactly one of two pictures. -/
def flip (s t : Screen) : Screen := ⟨Vector.zipWith (· ^^^ ·) s.rows t.rows⟩

/-- Whether some pixel is lit in both pictures. -/
def overlaps (s t : Screen) : Bool :=
  (Vector.zipWith (· &&& ·) s.rows t.rows).any (· != 0)

/-- The picture in text: a character for each pixel, and a line end after each row. -/
def text (lit unlit : Char) (s : Screen) : String :=
  String.join (s.rows.toList.map fun row =>
    String.ofList ((rowPixels row).map fun p => if p then lit else unlit) ++ "\n")

/-- The picture as a terminal shows it: full blocks and blanks. -/
def blockText (s : Screen) : String := s.text '█' ' '

/-- The picture in ASCII. -/
def sketch (s : Screen) : String := s.text '#' '.'

theorem pixel?_flip (s t : Screen) (x y : Nat) :
    (s.flip t).pixel? x y = (s.pixel? x y).bind fun p => (t.pixel? x y).map (p ^^ ·) := by
  unfold pixel?
  split <;> simp [flip]

theorem pixel?_blank {x y : Nat} (hx : x < 64) (hy : y < 32) :
    blank.pixel? x y = some false := by
  simp [pixel?, blank, hx, hy]

theorem getMsbD_rowOf (b : UInt8) (x c : Nat) (hc : c < 64) :
    (rowOf b x).getMsbD c = (decide (x ≤ c) && b.toBitVec.getMsbD (c - x)) := by
  rw [rowOf, BitVec.getMsbD_ushiftRight, BitVec.getMsbD_append]
  by_cases hx : x ≤ c
  · have : ¬ c < x := by omega
    by_cases h8 : 8 ≤ c - x
    · simp [hc, hx, this, h8, BitVec.getMsbD_of_ge]
    · simp [hc, hx, this, h8]
  · have : c < x := by omega
    simp [hx, this]

/-- A sprite lights the pixels that its bits fall on, with the origin wrapped and nothing else. -/
theorem pixel?_stamp (x y : UInt8) (sprite : List UInt8) {c r : Nat} (hc : c < 64) (hr : r < 32) :
    (stamp x y sprite).pixel? c r = some (decide (x.toNat % 64 ≤ c ∧ y.toNat % 32 ≤ r)
      && (sprite.getD (r - y.toNat % 32) 0).toBitVec.getMsbD (c - x.toNat % 64)) := by
  by_cases hy : r < y.toNat % 32
  · have : ¬ y.toNat % 32 ≤ r := by omega
    simp [pixel?, stamp, hc, hr, hy, this]
  · have : y.toNat % 32 ≤ r := by omega
    simp [pixel?, stamp, getMsbD_rowOf, hc, hr, hy, this]

end Screen

end ChipEight
