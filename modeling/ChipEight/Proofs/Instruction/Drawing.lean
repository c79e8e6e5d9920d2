import ChipEight.Instruction.Effect
import ChipEight.Proofs.Instruction.Pattern
import ChipEight.Proofs.Memory
import ChipEight.Proofs.Sprite
/-!
# Sprites drawn by a program

What `DXYN` puts on the screen and into the flag. The flag register may hold one of the coordinates; it is
read before it is written.
-/
namespace ChipEight.Instruction

open Screen

/-- A drawing opcode draws its sprite as if pixel by pixel. -/
theorem run_draw_eq {op : Opcode} (draws : op.family = 0xD) (s : State) :
    let rows := (List.range op.n.val).map fun r => s.memory.byteAt (s.index.toNat + r)
    let drawn := s.screen.drawSprite (s.v op.x) (s.v op.y) rows
    (decode op).run s = .ok { s.setV State.flag (if drawn.collided then 1 else 0) with
      screen := drawn.screen, redraw := true } := by
  intro rows drawn
  simp only [decode_of_draw draws, run, perform, done, Memory.readMany_eq_map, drawn, drawSprite_eq]
  rfl

/-- Drawing a sprite flips exactly the cells on the screen that its set bits fall on, and collides if one
of them was lit. Drawn again it restores the screen, and collides if one of them was not lit. The screen
that it is laid over at once is the one it is drawn on pixel by pixel. An opcode `DXYN` draws the `N` bytes
from `I` on, taken round the end of memory, at the values that `VX` and `VY` have before; the collision
goes to `VF` and no other register changes. -/
theorem sprite_flips_its_cells :
    (∀ (s : Screen) (x y : UInt8) (sprite : List UInt8),
      let once := s.drawSprite x y sprite
      let twice := once.screen.drawSprite x y sprite
      once = ⟨s.flip (stamp x y sprite), s.overlaps (stamp x y sprite)⟩ ∧
      (∀ column row, Hits x y sprite column row →
        once.screen.pixel? column row = (s.pixel? column row).map (!·)) ∧
      (∀ column row, ¬Hits x y sprite column row →
        once.screen.pixel? column row = s.pixel? column row) ∧
      (once.collided = true ↔
        ∃ column row, Hits x y sprite column row ∧ s.pixel? column row = some true) ∧
      twice.screen = s ∧
      (twice.collided = true ↔
        ∃ column row, Hits x y sprite column row ∧ s.pixel? column row = some false)) ∧
    (∀ (op : Opcode) (s : State), op.family = 0xD →
      let rows := (List.range op.n.val).map fun r => s.memory.byteAt (s.index.toNat + r)
      let drawn := s.screen.drawSprite (s.v op.x) (s.v op.y) rows
      ∃ after, (decode op).run s = .ok after ∧ after.screen = drawn.screen ∧
        after.v State.flag = (if drawn.collided then 1 else 0) ∧
        ∀ r, r ≠ State.flag → after.v r = s.v r) := by
  constructor
  · intro s x y sprite once twice
    have flips := flips_sprite x y sprite
    refine ⟨drawSprite_eq s x y sprite, ?_, ?_, ?_, ?_, ?_⟩
    · exact fun column row => flips.flipped ⟨s, false⟩ column row
    · exact fun column row => flips.kept ⟨s, false⟩ column row
    · exact (flips.collided ⟨s, false⟩).trans (by simp)
    · exact flips.twice ⟨s, false⟩ false
    · exact flips.collided_again ⟨s, false⟩
  · intro op s draws rows drawn
    refine ⟨_, run_draw_eq draws s, rfl, ?_, ?_⟩
    · exact (s.v_setV _ _ _).trans (if_pos rfl)
    · intro r other
      exact (s.v_setV _ _ _).trans (if_neg other.symm)

end ChipEight.Instruction
