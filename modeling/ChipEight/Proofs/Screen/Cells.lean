import ChipEight.Proofs.Screen.View
import ChipEight.Proofs.Sprite
/-!
# The screen as one array

A screen is a row of 2048 cells as well as 32 words (the specification, §3): the pixel in column `x` of
row `y` is the cell `y * 64 + x`. The two tell the same (`ofCells_cells`, `cells_ofCells`), and what is
asked of a screen or done to it is asked of its cells or done to them: the rows are 64 cells each, a
blank screen has none lit, and to strike a pixel is to flip one cell in place.
-/
namespace ChipEight.Screen

abbrev Cells := Vector Bool 2048

/-- The cells of a screen, row by row from the top left. -/
def cells (s : Screen) : Cells :=
  Vector.ofFn fun i => (s.pixel? (i.val % 64) (i.val / 64)).getD false

/-- The screen with the given cells. -/
def ofCells (cells : Cells) : Screen :=
  ⟨Vector.ofFn fun y => rowOfPixels fun x => (cells[y.val * 64 + x]?).getD false⟩

theorem getElem?_cells (s : Screen) {x y : Nat} (left : x < 64) (low : y < 32) :
    s.cells[y * 64 + x]? = s.pixel? x y := by
  have inside : y * 64 + x < 2048 := by omega
  have column : (y * 64 + x) % 64 = x := by omega
  have row : (y * 64 + x) / 64 = y := by omega
  rw [Vector.getElem?_eq_getElem inside, cells, Vector.getElem_ofFn, column, row,
    pixel?_of_lt s left low, Option.getD_some]

/-- A pixel is looked up in the array if its place is on the screen. -/
theorem pixel?_eq_cells (s : Screen) (x y : Nat) :
    s.pixel? x y = if x < 64 ∧ y < 32 then s.cells[y * 64 + x]? else none := by
  split
  next inside => exact (s.getElem?_cells inside.1 inside.2).symm
  next outside => exact pixel?_outside s outside

theorem pixel?_ofCells (cells : Cells) {x y : Nat} (left : x < 64) (low : y < 32) :
    (ofCells cells).pixel? x y = cells[y * 64 + x]? := by
  have inside : y * 64 + x < 2048 := by omega
  simp [pixel?, left, low, ofCells, rowOfPixels, inside]

theorem ofCells_cells (s : Screen) : ofCells s.cells = s := by
  refine ext_pixel? fun x y => ?_
  by_cases inside : x < 64 ∧ y < 32
  · rw [pixel?_ofCells _ inside.1 inside.2, getElem?_cells s inside.1 inside.2]
  · rw [pixel?_outside _ inside, pixel?_outside _ inside]

theorem ext_cells {a b : Cells}
    (same : ∀ x y, x < 64 → y < 32 → a[y * 64 + x]? = b[y * 64 + x]?) : a = b := by
  refine Vector.ext fun i inside => ?_
  have place : i / 64 * 64 + i % 64 = i := by omega
  have here := same (i % 64) (i / 64) (by omega) (by omega)
  rw [place, Vector.getElem?_eq_getElem inside, Vector.getElem?_eq_getElem inside] at here
  exact Option.some.inj here

theorem cells_ofCells (c : Cells) : (ofCells c).cells = c := by
  refine ext_cells fun x y left low => ?_
  rw [getElem?_cells _ left low, pixel?_ofCells c left low]

/-- All pixels in a row are the cells in their order. -/
theorem pixels_eq_cells (s : Screen) : s.pixels = s.cells.toList := by
  refine List.ext_getElem? fun i => ?_
  have place : i / 64 * 64 + i % 64 = i := by omega
  have left : i % 64 < 64 := Nat.mod_lt i (by decide)
  have pixel := getElem?_pixels s left (i / 64)
  rw [place] at pixel
  rw [pixel, Vector.getElem?_toList]
  by_cases low : i / 64 < 32
  · have cell := getElem?_cells s left low
    rw [place] at cell
    exact cell.symm
  · rw [pixel?_outside s (by omega), Vector.getElem?_eq_none (by omega)]

/-- The rows are the cells cut after every 64. -/
theorem pixelRows_eq_cells (s : Screen) :
    s.pixelRows = (List.range 32).map fun y => (s.cells.toList.drop (y * 64)).take 64 := by
  refine List.ext_getElem? fun y => ?_
  rw [List.getElem?_map]
  by_cases low : y < 32
  · rw [List.getElem?_range low, Option.map_some, pixelRows, List.getElem?_map,
      Vector.getElem?_toList, Vector.getElem?_eq_getElem low, Option.map_some]
    refine congrArg some (List.ext_getElem? fun x => ?_)
    rw [getElem?_rowPixels, List.getElem?_take]
    split
    next left =>
      rw [List.getElem?_drop, Vector.getElem?_toList, getElem?_cells s left low,
        pixel?_of_lt s left low]
    next right => rfl
  · have below : 32 ≤ y := Nat.le_of_not_lt low
    rw [List.getElem?_eq_none (by rwa [length_pixelRows]),
      List.getElem?_eq_none (by rwa [List.length_range]), Option.map_none]

theorem cells_blank : blank.cells = Vector.replicate 2048 false := by
  refine ext_cells fun x y left low => ?_
  have inside : y * 64 + x < 2048 := by omega
  rw [getElem?_cells _ left low, pixel?_blank left low, Vector.getElem?_eq_getElem inside,
    Vector.getElem_replicate]

/-- A screen is blank if no cell is lit. -/
theorem isBlank_eq_cells (s : Screen) : s.isBlank = s.cells.all (!·) := by
  rw [Bool.eq_iff_iff, isBlank_iff, Vector.all_eq_true]
  constructor
  · intro dark i inside
    have place : i / 64 * 64 + i % 64 = i := by omega
    have unlit := dark (i % 64) (i / 64)
    rw [← getElem?_cells s (by omega) (by omega), place, Vector.getElem?_eq_getElem inside] at unlit
    simpa using unlit
  · intro dark x y lit
    by_cases inside : x < 64 ∧ y < 32
    · have bound : y * 64 + x < 2048 := by omega
      have unlit := dark (y * 64 + x) bound
      rw [← getElem?_cells s inside.1 inside.2, Vector.getElem?_eq_getElem bound,
        Option.some.injEq] at lit
      rw [lit] at unlit
      cases unlit
    · rw [pixel?_outside s inside] at lit
      cases lit

/-- To strike a pixel is to look at its cell and to flip it, with all other cells left alone. -/
theorem strike_eq_cells (d : Drawing) {x y : Nat} (left : x < 64) (inside : y * 64 + x < 2048) :
    (d.strike x y).screen.cells =
      d.screen.cells.set (y * 64 + x) (!d.screen.cells[y * 64 + x]) ∧
    (d.strike x y).collided = (d.collided || d.screen.cells[y * 64 + x]) := by
  have low : y < 32 := by omega
  have flips := Drawing.flips_strike left low
  have cell : d.screen.pixel? x y = some d.screen.cells[y * 64 + x] := by
    rw [← getElem?_cells _ left low, Vector.getElem?_eq_getElem inside]
  constructor
  · refine ext_cells fun column row left' low' => ?_
    rw [getElem?_cells _ left' low']
    by_cases here : column = x ∧ row = y
    · obtain ⟨rfl, rfl⟩ := here
      rw [flips.flipped d _ _ ⟨rfl, rfl⟩, cell, Vector.getElem?_set_self]
      rfl
    · have other : y * 64 + x ≠ row * 64 + column := by omega
      rw [flips.kept d _ _ here, Vector.getElem?_set_ne inside other, getElem?_cells _ left' low']
  · rw [Drawing.strike, cell]
    cases d.screen.cells[y * 64 + x] <;> rfl

end ChipEight.Screen
