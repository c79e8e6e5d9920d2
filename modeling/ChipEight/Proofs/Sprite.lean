import ChipEight.Proofs.Screen
/-!
# Sprites pixel by pixel

A sprite is drawn at once, as a picture of its own that is laid over the screen. It can also be drawn one
pixel after the other, row by row up to the edges, with each pixel looked at just before it is flipped.
`Flips` says of a way to draw which cells it flips and what it notices; since no cell is met twice, parts
of a drawing can be put together (`Flips.andThen`), and both ways come to the same (`drawSprite_eq`).
-/
namespace ChipEight

namespace Screen

/-- The picture with a single pixel lit. -/
def dot (x y : Nat) : Screen :=
  ⟨Vector.ofFn fun r => if r.val = y then BitVec.twoPow 64 (63 - x) else 0⟩

theorem pixel?_dot_iff {x y : Nat} (left : x < 64) (low : y < 32) (column row : Nat) :
    (dot x y).pixel? column row = some true ↔ column = x ∧ row = y := by
  by_cases inside : column < 64 ∧ row < 32
  · rw [pixel?_of_lt _ inside.1 inside.2, Option.some.injEq]
    simp only [dot, Vector.getElem_ofFn]
    split
    next here =>
      simp only [BitVec.getMsbD_twoPow, Bool.and_eq_true, decide_eq_true_eq, here, and_true]
      omega
    next elsewhere => simp [elsewhere]
  · rw [pixel?_outside _ inside]
    simp only [reduceCtorEq, false_iff]
    omega

theorem overlaps_iff (s t : Screen) :
    s.overlaps t = true ↔ ∃ x y, t.pixel? x y = some true ∧ s.pixel? x y = some true := by
  rw [overlaps, Vector.any_eq_true]
  simp only [Vector.getElem_zipWith, bne_iff_ne, ne_eq]
  constructor
  · rintro ⟨y, low, lit⟩
    -- A row that is not all zeros has a bit that is not.
    obtain ⟨x, left, both⟩ : ∃ x, x < 64 ∧ (s.rows[y] &&& t.rows[y]).getMsbD x = true := by
      refine Classical.byContradiction fun none => lit (BitVec.eq_of_getMsbD_eq fun x left => ?_)
      have unset : ¬(s.rows[y] &&& t.rows[y]).getMsbD x = true := fun set => none ⟨x, left, set⟩
      rw [Bool.not_eq_true] at unset
      rw [unset]
      exact BitVec.getMsbD_zero.symm
    rw [BitVec.getMsbD_and, Bool.and_eq_true] at both
    refine ⟨x, y, ?_, ?_⟩
    · rw [pixel?_of_lt t left low, both.2]
    · rw [pixel?_of_lt s left low, both.1]
  · rintro ⟨x, y, lit, before⟩
    by_cases inside : x < 64 ∧ y < 32
    · rw [pixel?_of_lt _ inside.1 inside.2, Option.some.injEq] at lit before
      refine ⟨y, inside.2, fun zero => ?_⟩
      have unlit := congrArg (BitVec.getMsbD · x) zero
      simp [lit, before] at unlit
    · rw [pixel?_outside t inside] at lit
      cases lit

end Screen

/-- A screen being drawn on, and whether a lit pixel has been put out so far. -/
structure Drawing where
  screen : Screen
  collided : Bool

namespace Drawing

/-- Looks at a pixel and flips it. -/
def strike (x y : Nat) (d : Drawing) : Drawing :=
  ⟨d.screen.flip (.dot x y), d.collided || d.screen.pixel? x y == some true⟩

/-- Draws the low `count` bits of a byte from `(x, y)` on to the right, the highest first, up to the right
edge. -/
def drawBits (b : UInt8) (x y : Nat) : Nat → Drawing → Drawing
  | 0, d => d
  | bit + 1, d =>
    if 64 ≤ x then d
    else drawBits b (x + 1) y bit (if b.toNat.testBit bit then d.strike x y else d)

/-- Draws bytes from `(x, y)` on downwards, up to the bottom edge. -/
def drawRows (x y : Nat) : List UInt8 → Drawing → Drawing
  | [], d => d
  | b :: rest, d => if 32 ≤ y then d else drawRows x (y + 1) rest (drawBits b x y 8 d)

/-- A way to draw flips certain cells and no other, and notices a collision if one of them was lit at the
start. -/
structure Flips (cells : Nat → Nat → Prop) (draw : Drawing → Drawing) : Prop where
  flipped (d : Drawing) (x y : Nat) : cells x y →
    (draw d).screen.pixel? x y = (d.screen.pixel? x y).map (!·)
  kept (d : Drawing) (x y : Nat) : ¬cells x y → (draw d).screen.pixel? x y = d.screen.pixel? x y
  collided (d : Drawing) : (draw d).collided = true ↔
    d.collided = true ∨ ∃ x y, cells x y ∧ d.screen.pixel? x y = some true

namespace Flips

variable {cells more : Nat → Nat → Prop} {draw next : Drawing → Drawing}

theorem congr (flips : Flips cells draw) (same : ∀ x y, more x y ↔ cells x y) : Flips more draw := by
  obtain rfl : more = cells := funext fun x => funext fun y => propext (same x y)
  exact flips

/-- Nothing drawn. -/
theorem nothing (none : ∀ x y, ¬cells x y) : Flips cells id where
  flipped _ x y here := absurd here (none x y)
  kept _ _ _ _ := rfl
  collided d := by simp [none]

/-- One thing drawn after another, where no cell is met twice: what the second looks at is still as it
was before the first. -/
theorem andThen (first : Flips cells draw) (second : Flips more next)
    (apart : ∀ x y, cells x y → ¬more x y) :
    Flips (fun x y => cells x y ∨ more x y) (fun d => next (draw d)) where
  flipped d x y here := by
    rcases here with early | late
    · rw [second.kept _ x y (apart x y early), first.flipped d x y early]
    · rw [second.flipped _ x y late, first.kept d x y fun early => apart x y early late]
  kept d x y elsewhere := by
    rw [not_or] at elsewhere
    rw [second.kept _ x y elsewhere.2, first.kept d x y elsewhere.1]
  collided d := by
    have untouched (x y : Nat) (late : more x y) :
        (draw d).screen.pixel? x y = d.screen.pixel? x y :=
      first.kept d x y fun early => apart x y early late
    rw [second.collided, first.collided, or_assoc]
    apply or_congr_right
    constructor
    · rintro (⟨x, y, here, lit⟩ | ⟨x, y, here, lit⟩)
      · exact ⟨x, y, .inl here, lit⟩
      · exact ⟨x, y, .inr here, untouched x y here ▸ lit⟩
    · rintro ⟨x, y, here | here, lit⟩
      · exact .inl ⟨x, y, here, lit⟩
      · exact .inr ⟨x, y, here, (untouched x y here).trans lit⟩

/-- Only one way to draw flips given cells. -/
theorem unique (one : Flips cells draw) (other : Flips cells next) : draw = next := by
  funext d
  have screen : (draw d).screen = (next d).screen := by
    refine Screen.ext_pixel? fun x y => ?_
    by_cases here : cells x y
    · rw [one.flipped d x y here, other.flipped d x y here]
    · rw [one.kept d x y here, other.kept d x y here]
  have collided : (draw d).collided = (next d).collided := by
    rw [Bool.eq_iff_iff, one.collided, other.collided]
  cases drawn : draw d
  cases drawn' : next d
  rw [drawn, drawn'] at screen collided
  cases screen
  cases collided
  rfl

/-- Drawn twice, the cells are as they were. -/
theorem twice (flips : Flips cells draw) (d : Drawing) (again : Bool) :
    (draw ⟨(draw d).screen, again⟩).screen = d.screen := by
  refine Screen.ext_pixel? fun x y => ?_
  by_cases here : cells x y
  · rw [flips.flipped _ x y here, flips.flipped d x y here, Option.map_map]
    cases d.screen.pixel? x y <;> simp
  · rw [flips.kept _ x y here, flips.kept d x y here]

/-- Drawn again, the cells collide if one of them was not lit before. -/
theorem collided_again (flips : Flips cells draw) (d : Drawing) :
    (draw ⟨(draw d).screen, false⟩).collided = true ↔
      ∃ x y, cells x y ∧ d.screen.pixel? x y = some false := by
  rw [flips.collided]
  simp only [Bool.false_eq_true, false_or]
  refine exists_congr fun x => exists_congr fun y => and_congr_right fun here => ?_
  rw [flips.flipped d x y here]
  cases d.screen.pixel? x y <;> simp

end Flips

/-! ## All at once -/

theorem flips_picture (t : Screen) :
    Flips (fun x y => t.pixel? x y = some true)
      (fun d => ⟨d.screen.flip t, d.collided || d.screen.overlaps t⟩) where
  flipped d x y lit := by
    rw [Screen.pixel?_flip, lit]
    cases d.screen.pixel? x y <;> simp
  kept d x y unlit := by
    rw [Screen.pixel?_flip]
    by_cases inside : x < 64 ∧ y < 32
    · rw [Screen.pixel?_of_lt t inside.1 inside.2, Option.some.injEq, Bool.not_eq_true] at unlit
      rw [Screen.pixel?_of_lt t inside.1 inside.2, unlit]
      cases d.screen.pixel? x y <;> simp
    · rw [Screen.pixel?_outside _ inside]
      rfl
  collided d := by rw [Bool.or_eq_true, Screen.overlaps_iff]

/-! ## One pixel after the other -/

/-- A pixel flipped is a picture of one pixel drawn. -/
theorem flips_strike {x y : Nat} (left : x < 64) (low : y < 32) :
    Flips (fun column row => column = x ∧ row = y) (strike x y) := by
  have struck : strike x y =
      fun d => ⟨d.screen.flip (.dot x y), d.collided || d.screen.overlaps (.dot x y)⟩ := by
    funext d
    have collides : d.screen.overlaps (.dot x y) = (d.screen.pixel? x y == some true) := by
      rw [Bool.eq_iff_iff, Screen.overlaps_iff, beq_iff_eq]
      simp only [Screen.pixel?_dot_iff left low]
      constructor
      · rintro ⟨_, _, ⟨rfl, rfl⟩, lit⟩
        exact lit
      · exact fun lit => ⟨x, y, ⟨rfl, rfl⟩, lit⟩
    rw [strike, collides]
  rw [struck]
  exact (flips_picture _).congr fun column row => (Screen.pixel?_dot_iff left low column row).symm

theorem flips_bits (b : UInt8) (x : Nat) {y : Nat} (low : y < 32) (count : Nat) :
    Flips (fun column row => row = y ∧ x ≤ column ∧ column < x + count ∧ column < 64 ∧
      b.toNat.testBit (x + count - 1 - column) = true) (drawBits b x y count) := by
  induction count generalizing x with
  | zero => exact Flips.nothing fun column row here => by omega
  | succ bit ih =>
    by_cases edge : 64 ≤ x
    · have done : drawBits b x y (bit + 1) = id := funext fun d => if_pos edge
      rw [done]
      exact Flips.nothing fun column row here => by omega
    · have goesOn : drawBits b x y (bit + 1) = fun d =>
          drawBits b (x + 1) y bit (if b.toNat.testBit bit then d.strike x y else d) :=
        funext fun d => if_neg edge
      have one : Flips (fun column row => (column = x ∧ row = y) ∧ b.toNat.testBit bit = true)
          (fun d => if b.toNat.testBit bit then d.strike x y else d) := by
        cases b.toNat.testBit bit with
        | true => exact (flips_strike (Nat.lt_of_not_le edge) low).congr (by simp)
        | false => exact Flips.nothing (by simp)
      rw [goesOn]
      refine (one.andThen (ih (x + 1)) fun column row here => by omega).congr fun column row => ?_
      -- The first column has the highest bit, and in the others the bits are counted alike.
      by_cases first : column = x
      · subst first
        have highest : column + (bit + 1) - 1 - column = bit := by omega
        rw [highest]
        constructor
        · rintro ⟨same, -, -, -, set⟩
          exact .inl ⟨⟨rfl, same⟩, set⟩
        · rintro (⟨⟨-, same⟩, set⟩ | ⟨-, behind, -⟩)
          · exact ⟨same, Nat.le_refl _, by omega, by omega, set⟩
          · omega
      · have counted : x + (bit + 1) - 1 - column = x + 1 + bit - 1 - column := by omega
        rw [counted]
        constructor
        · rintro ⟨same, right, before, onScreen, set⟩
          exact .inr ⟨same, by omega, by omega, onScreen, set⟩
        · rintro (⟨⟨here, -⟩, -⟩ | ⟨same, right, before, onScreen, set⟩)
          · exact absurd here first
          · exact ⟨same, by omega, by omega, onScreen, set⟩

theorem flips_rows (x y : Nat) (sprite : List UInt8) :
    Flips (fun column row => (y ≤ row ∧ row < 32) ∧ x ≤ column ∧ column < x + 8 ∧ column < 64 ∧
      (sprite.getD (row - y) 0).toNat.testBit (x + 8 - 1 - column) = true) (drawRows x y sprite) := by
  induction sprite generalizing y with
  | nil => exact Flips.nothing (by simp)
  | cons b rest ih =>
    by_cases edge : 32 ≤ y
    · have done : drawRows x y (b :: rest) = id := funext fun d => if_pos edge
      rw [done]
      exact Flips.nothing fun column row here => by omega
    · have goesOn : drawRows x y (b :: rest) = fun d =>
          drawRows x (y + 1) rest (drawBits b x y 8 d) := funext fun d => if_neg edge
      rw [goesOn]
      refine ((flips_bits b x (Nat.lt_of_not_le edge) 8).andThen (ih (y + 1)) fun column row here => by omega).congr
        fun column row => ?_
      by_cases first : row = y
      · subst first
        rw [Nat.sub_self, List.getD_cons_zero]
        constructor
        · rintro ⟨-, bits⟩
          exact .inl ⟨rfl, bits⟩
        · rintro (⟨-, bits⟩ | ⟨⟨below, -⟩, -⟩)
          · exact ⟨by omega, bits⟩
          · omega
      · constructor
        · rintro ⟨rows, bits⟩
          have counted : row - y = row - (y + 1) + 1 := by omega
          rw [counted, List.getD_cons_succ] at bits
          exact .inr ⟨by omega, bits⟩
        · rintro (⟨here, -⟩ | ⟨rows, bits⟩)
          · exact absurd here first
          · have counted : row - y = row - (y + 1) + 1 := by omega
            rw [counted, List.getD_cons_succ]
            exact ⟨by omega, bits⟩

end Drawing

namespace Screen

/-- Draws a sprite pixel by pixel, its top left corner at `(x, y)`, which wraps around the screen. -/
def drawSprite (s : Screen) (x y : UInt8) (sprite : List UInt8) : Drawing :=
  .drawRows (x.toNat % 64) (y.toNat % 32) sprite ⟨s, false⟩

/-- A set bit of a sprite, the bit `7 - c` of row `r`, falls on a cell of the screen. -/
def Hits (x y : UInt8) (sprite : List UInt8) (column row : Nat) : Prop :=
  ∃ c r b, column = x.toNat % 64 + c ∧ row = y.toNat % 32 + r ∧ c < 8 ∧ column < 64 ∧ row < 32 ∧
    sprite[r]? = some b ∧ b.toNat.testBit (7 - c) = true

/-- The same, told from the cell. Below the last row there are no bits. -/
theorem hits_iff (x y : UInt8) (sprite : List UInt8) (column row : Nat) :
    Hits x y sprite column row ↔ (y.toNat % 32 ≤ row ∧ row < 32) ∧ x.toNat % 64 ≤ column ∧
      column < x.toNat % 64 + 8 ∧ column < 64 ∧
      (sprite.getD (row - y.toNat % 32) 0).toNat.testBit (x.toNat % 64 + 8 - 1 - column) = true := by
  constructor
  · rintro ⟨c, r, b, rfl, rfl, within, left, low, found, set⟩
    have counted : x.toNat % 64 + 8 - 1 - (x.toNat % 64 + c) = 7 - c := by omega
    rw [Nat.add_sub_cancel_left, counted, List.getD_eq_getElem?_getD, found]
    exact ⟨by omega, by omega, by omega, left, set⟩
  · rintro ⟨⟨below, low⟩, right, within, left, set⟩
    have counted : x.toNat % 64 + 8 - 1 - column = 7 - (column - x.toNat % 64) := by omega
    rw [counted, List.getD_eq_getElem?_getD] at set
    cases found : sprite[row - y.toNat % 32]? with
    | none => simp [found] at set
    | some b =>
      rw [found] at set
      exact ⟨column - x.toNat % 64, row - y.toNat % 32, b, by omega, by omega, by omega, left, low,
        found, set⟩

theorem pixel?_stamp_iff (x y : UInt8) (sprite : List UInt8) (column row : Nat) :
    (stamp x y sprite).pixel? column row = some true ↔ Hits x y sprite column row := by
  rw [hits_iff]
  by_cases inside : column < 64 ∧ row < 32
  · rw [pixel?_stamp x y sprite inside.1 inside.2, getMsbD_toBitVec, Option.some.injEq,
      Bool.and_eq_true, Bool.and_eq_true, decide_eq_true_eq, decide_eq_true_eq]
    have counted (right : x.toNat % 64 ≤ column) :
        7 - (column - x.toNat % 64) = x.toNat % 64 + 8 - 1 - column := by omega
    constructor
    · rintro ⟨⟨right, below⟩, within, set⟩
      exact ⟨⟨below, inside.2⟩, right, by omega, inside.1, counted right ▸ set⟩
    · rintro ⟨⟨below, -⟩, right, within, -, set⟩
      exact ⟨⟨right, below⟩, by omega, (counted right).symm ▸ set⟩
  · rw [pixel?_outside _ inside]
    simp only [reduceCtorEq, false_iff]
    omega

/-- Drawing a sprite pixel by pixel flips the cells that its bits fall on. -/
theorem flips_sprite (x y : UInt8) (sprite : List UInt8) :
    Drawing.Flips (Hits x y sprite) (.drawRows (x.toNat % 64) (y.toNat % 32) sprite) :=
  (Drawing.flips_rows _ _ sprite).congr (hits_iff x y sprite)

/-- It comes to the same as laying the picture of the sprite over the screen. -/
theorem drawSprite_eq (s : Screen) (x y : UInt8) (sprite : List UInt8) :
    s.drawSprite x y sprite = ⟨s.flip (stamp x y sprite), s.overlaps (stamp x y sprite)⟩ := by
  have laid := (Drawing.flips_picture (stamp x y sprite)).congr fun column row =>
    (pixel?_stamp_iff x y sprite column row).symm
  exact congrFun ((flips_sprite x y sprite).unique laid) ⟨s, false⟩

end Screen

end ChipEight
