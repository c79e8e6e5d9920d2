import ChipEight.Proofs.Screen
import ChipEight.Proofs.Text.Parts
/-!
# Views of the screen

A screen can be looked at pixel by pixel, row by row, as one list of pixels and as text. All of these
tell the same (`views_agree`), so that the text can be read back to the screen.
-/
namespace ChipEight.Screen

open Text

/-- The pixels in rows, from the top. -/
def pixelRows (s : Screen) : List (List Bool) := s.rows.toList.map rowPixels

/-- A text shows the screen: a line for each row, in it a character for each pixel, and nothing else. -/
structure Shows (s : Screen) (lit unlit : Char) (text : List Char) : Prop where
  ended : text = (Text.lines text).flatMap (· ++ ['\n'])
  height : (Text.lines text).length = 32
  width : ∀ line ∈ Text.lines text, line.length = 64
  cell (x y : Nat) : (Text.lines text)[y]?.bind (·[x]?) =
    (s.pixel? x y).map fun p => if p then lit else unlit

/-! ## Rows -/

theorem length_pixelRows (s : Screen) : s.pixelRows.length = 32 := by
  rw [pixelRows, List.length_map, Vector.length_toList]

theorem length_of_mem_pixelRows {s : Screen} {row : List Bool} (among : row ∈ s.pixelRows) :
    row.length = 64 := by
  obtain ⟨word, -, rfl⟩ := List.mem_map.mp among
  rw [rowPixels, List.length_map, List.length_range]

theorem getElem?_rowPixels (row : BitVec 64) (x : Nat) :
    (rowPixels row)[x]? = if x < 64 then some (row.getMsbD x) else none := by
  rw [rowPixels, List.getElem?_map]
  split
  next left => rw [List.getElem?_range left, Option.map_some]
  next right => rw [List.getElem?_eq_none (by simpa using right), Option.map_none]

/-- A pixel is found in its column of its row. -/
theorem pixel?_eq_getElem? (s : Screen) (x y : Nat) :
    s.pixel? x y = s.pixelRows[y]?.bind (·[x]?) := by
  rw [pixelRows, List.getElem?_map, Vector.getElem?_toList]
  unfold pixel?
  by_cases low : y < 32
  · by_cases left : x < 64
    · simp [low, left, getElem?_rowPixels]
    · simp [low, left, getElem?_rowPixels]
  · simp [low]

theorem pixel?_eq_none_iff (s : Screen) (x y : Nat) : s.pixel? x y = none ↔ 64 ≤ x ∨ 32 ≤ y := by
  unfold pixel?
  split
  next inside => simp only [reduceCtorEq, false_iff]; omega
  next outside => simp only [true_iff]; omega

/-- In rows of one width, one behind the other, places go by the row first. -/
theorem getElem?_flatten {α : Type} {width : Nat} {rows : List (List α)}
    (even : ∀ row ∈ rows, row.length = width) {x : Nat} (inside : x < width) (y : Nat) :
    rows.flatten[y * width + x]? = rows[y]?.bind (·[x]?) := by
  induction rows generalizing y with
  | nil => rfl
  | cons row rows ih =>
    have here := even row List.mem_cons_self
    rw [List.flatten_cons]
    cases y with
    | zero =>
      rw [Nat.zero_mul, Nat.zero_add, List.getElem?_append_left (by omega)]
      rfl
    | succ y =>
      have behind : (y + 1) * width + x - row.length = y * width + x := by
        rw [here, Nat.succ_mul]
        omega
      rw [List.getElem?_append_right (by rw [here, Nat.succ_mul]; omega), behind,
        ih fun row among => even row (List.mem_cons_of_mem _ among)]
      rfl

theorem pixels_eq_flatten (s : Screen) : s.pixels = s.pixelRows.flatten := rfl

theorem getElem?_pixels (s : Screen) {x : Nat} (inside : x < 64) (y : Nat) :
    s.pixels[y * 64 + x]? = s.pixel? x y := by
  rw [pixels_eq_flatten, getElem?_flatten (fun _ => length_of_mem_pixelRows) inside,
    pixel?_eq_getElem?]

theorem isBlank_iff (s : Screen) : s.isBlank = true ↔ ∀ x y, s.pixel? x y ≠ some true := by
  rw [isBlank, Vector.all_eq_true]
  constructor
  · intro blank x y lit
    by_cases inside : x < 64 ∧ y < 32
    · have row : s.rows[y] = 0 := eq_of_beq (blank y inside.2)
      rw [pixel?_of_lt s inside.1 inside.2, row] at lit
      simp at lit
    · rw [pixel?_outside s inside] at lit
      cases lit
  · intro dark y low
    refine beq_iff_eq.mpr (BitVec.eq_of_getMsbD_eq fun x left => ?_)
    have unlit := dark x y
    rw [pixel?_of_lt s left low, Ne, Option.some.injEq, Bool.not_eq_true] at unlit
    rw [unlit]
    exact BitVec.getMsbD_zero.symm

/-! ## Text -/

section Text

variable {s : Screen} {lit unlit : Char}

/-- The lines of the picture in text. -/
def textRows (s : Screen) (lit unlit : Char) : List (List Char) :=
  s.pixelRows.map fun row => row.map fun p => if p then lit else unlit

theorem toList_text (s : Screen) (lit unlit : Char) :
    (s.text lit unlit).toList = (s.textRows lit unlit).flatMap (· ++ ['\n']) := by
  rw [text, String.toList_join, textRows, pixelRows, List.flatMap_map, List.flatMap_map,
    List.flatMap_map]
  refine congrArg (s.rows.toList.flatMap ·) (funext fun row => ?_)
  rw [String.toList_append, String.toList_ofList]
  rfl

theorem lines_text (s : Screen) (visible : lit ≠ '\n') (visible' : unlit ≠ '\n') :
    Text.lines (s.text lit unlit).toList = s.textRows lit unlit := by
  rw [toList_text, lines_ended]
  intro line among
  obtain ⟨row, -, rfl⟩ := List.mem_map.mp among
  intro ended
  obtain ⟨p, -, same⟩ := List.mem_map.mp ended
  cases p with
  | true => exact visible same
  | false => exact visible' same

theorem shows_text (s : Screen) (visible : lit ≠ '\n') (visible' : unlit ≠ '\n') :
    s.Shows lit unlit (s.text lit unlit).toList := by
  have lines := s.lines_text visible visible'
  constructor
  · rw [lines]
    exact s.toList_text lit unlit
  · rw [lines, textRows, List.length_map, length_pixelRows]
  · rw [lines]
    intro line among
    obtain ⟨row, here, rfl⟩ := List.mem_map.mp among
    rw [List.length_map, length_of_mem_pixelRows here]
  · intro x y
    rw [lines, textRows, List.getElem?_map, pixel?_eq_getElem?]
    cases s.pixelRows[y]? with
    | none => rfl
    | some row => exact List.getElem?_map

end Text

/-- The row with the given pixels. -/
def rowOfPixels (lights : Nat → Bool) : BitVec 64 :=
  (BitVec.ofBoolListBE ((List.range 64).map lights)).cast (by simp)

/-- The picture that a text shows, with a pixel lit wherever the character `lit` stands. -/
def read (lit : Char) (text : List Char) : Screen :=
  ⟨Vector.ofFn fun y => rowOfPixels fun x => (Text.lines text)[y.val]?.bind (·[x]?) == some lit⟩

theorem pixel?_read (lit : Char) (text : List Char) {x y : Nat} (left : x < 64) (low : y < 32) :
    (read lit text).pixel? x y = some ((Text.lines text)[y]?.bind (·[x]?) == some lit) := by
  simp [pixel?, left, low, read, rowOfPixels]

/-- A text that shows a screen is read back to it. -/
theorem Shows.read {s : Screen} {lit unlit : Char} {text : List Char} (shows : s.Shows lit unlit text)
    (other : lit ≠ unlit) : Screen.read lit text = s := by
  refine ext_pixel? fun x y => ?_
  by_cases inside : x < 64 ∧ y < 32
  · rw [pixel?_read lit text inside.1 inside.2, shows.cell, pixel?_of_lt s inside.1 inside.2]
    cases s.rows[y].getMsbD x with
    | true => simp
    | false => simp [other.symm]
  · rw [pixel?_outside _ inside, pixel?_outside _ inside]

theorem shows_blockText (s : Screen) : s.Shows '█' ' ' s.blockText.toList :=
  s.shows_text (by decide) (by decide)

theorem shows_sketch (s : Screen) : s.Shows '#' '.' s.sketch.toList :=
  s.shows_text (by decide) (by decide)

theorem read_blockText (s : Screen) : read '█' s.blockText.toList = s :=
  s.shows_blockText.read (by decide)

theorem read_sketch (s : Screen) : read '#' s.sketch.toList = s :=
  s.shows_sketch.read (by decide)

/-- The sketch is the picture in blocks with its two characters exchanged for others. -/
theorem toList_sketch (s : Screen) : s.sketch.toList =
    s.blockText.toList.map fun c => if c = '█' then '#' else if c = ' ' then '.' else c := by
  rw [sketch, blockText, toList_text, toList_text, List.map_flatMap, textRows, textRows,
    List.flatMap_map, List.flatMap_map]
  refine congrArg (s.pixelRows.flatMap ·) (funext fun row => ?_)
  rw [List.map_append, List.map_map]
  congr 1
  refine List.map_congr_left fun p _ => ?_
  cases p <;> rfl

/-- A screen has 32 rows of 64 pixels, and wherever a pixel is asked for, it is found in its column of
its row, in its place among all pixels, and as a character in its column of its line, both in blocks and
in the sketch. Beyond there is none. Each of the two texts can be read back to the screen, so two screens
of one text are the same. A screen is blank if none of its pixels is lit. -/
theorem views_agree (s : Screen) :
    (∀ x y, s.pixel? x y = none ↔ 64 ≤ x ∨ 32 ≤ y) ∧
    s.pixelRows.length = 32 ∧
    (∀ row ∈ s.pixelRows, row.length = 64) ∧
    (∀ x y, s.pixel? x y = s.pixelRows[y]?.bind (·[x]?)) ∧
    (∀ x y, x < 64 → s.pixel? x y = s.pixels[y * 64 + x]?) ∧
    s.Shows '█' ' ' s.blockText.toList ∧
    s.Shows '#' '.' s.sketch.toList ∧
    (s.sketch.toList =
      s.blockText.toList.map fun c => if c = '█' then '#' else if c = ' ' then '.' else c) ∧
    read '█' s.blockText.toList = s ∧
    read '#' s.sketch.toList = s ∧
    (∀ t : Screen, s.blockText = t.blockText ∨ s.sketch = t.sketch → s = t) ∧
    (s.isBlank = true ↔ ∀ x y, s.pixel? x y ≠ some true) := by
  refine ⟨pixel?_eq_none_iff s, length_pixelRows s, fun _ => length_of_mem_pixelRows,
    pixel?_eq_getElem? s, fun x y left => (getElem?_pixels s left y).symm, shows_blockText s,
    shows_sketch s, toList_sketch s, read_blockText s, read_sketch s, ?_, isBlank_iff s⟩
  rintro t (same | same)
  · rw [← read_blockText s, same, read_blockText t]
  · rw [← read_sketch s, same, read_sketch t]

end ChipEight.Screen
