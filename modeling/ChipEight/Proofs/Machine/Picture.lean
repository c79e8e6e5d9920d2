import ChipEight.Proofs.Instruction.Reach
import ChipEight.Proofs.Machine.Chronicle
import ChipEight.Proofs.Machine.Transcript
import ChipEight.Proofs.Machine.Redraw
import ChipEight.Proofs.Memory
import ChipEight.Proofs.Screen
/-!
# The picture

What is on the screen, told by the sprites drawn. A `Stroke` is a sprite drawn, and `Stroke.covers` says
which pixels it covers, by positions on the screen and places in memory alone. The chronicle of the
strokes since the screen was last cleared determines the picture (`screen_is_parity`): a pixel is lit if
an odd number of them cover it.
-/
namespace ChipEight

namespace Instruction

theorem paints_decode_iff (op : Opcode) :
    (decode op).paints = true ↔ op = 0x00E0 ∨ op.family = 0xD := by
  constructor
  · intro paints
    cases decoded : decode op with
    | clear =>
      left
      rw [← encode_decode op, decoded]
      rfl
    | draw x y n =>
      right
      rw [← encode_decode op, decoded]
      exact (List.cons.inj (Opcode.nibbles_withDigits 0xD x y n)).1
    | _ =>
      rw [decoded] at paints
      cases paints
  · rintro (rfl | family)
    · rfl
    · rw [decode_of_draw family]
      rfl

end Instruction

/-- A sprite drawn: the opcode, and the state that it met. -/
structure Stroke where
  op : Opcode
  met : State

namespace Stroke

/-- Whether a sprite covers a pixel. Its corner wraps around the screen, its rows around memory, and
nothing else wraps. -/
def covers (t : Stroke) (x y : Nat) : Bool :=
  let left := (t.met.v t.op.x).toNat % 64
  let top := (t.met.v t.op.y).toNat % 32
  decide (top ≤ y ∧ y - top < t.op.n.val ∧ left ≤ x ∧ x - left < 8) &&
    (t.met.memory.byteAt (t.met.index.toNat + (y - top))).toNat.testBit (7 - (x - left))

/-- The picture that a sprite makes alone. -/
def picture (t : Stroke) : Screen :=
  .stamp (t.met.v t.op.x) (t.met.v t.op.y) (t.met.memory.readMany t.met.index t.op.n.val)

theorem pixel?_picture (t : Stroke) {x y : Nat} (left : x < 64) (low : y < 32) :
    t.picture.pixel? x y = some (t.covers x y) := by
  rw [picture, Screen.pixel?_stamp _ _ _ left low, Memory.readMany_getD, Screen.getMsbD_toBitVec,
    covers]
  -- Below the last row of the sprite there is nothing to read, and the stamp takes zeros instead.
  by_cases inside : y - (t.met.v t.op.y).toNat % 32 < t.op.n.val
  · simp only [inside, if_true, true_and, Option.some.injEq]
    rw [← Bool.and_assoc, ← Bool.decide_and]
    congr 1
    rw [decide_eq_decide]
    omega
  · simp [inside]

/-- What the drawn strokes are after an opcode, the latest first. -/
def note (drawn : List Stroke) (s : State) (op : Opcode) : List Stroke :=
  if op = 0x00E0 then [] else if op.family = 0xD then ⟨op, s⟩ :: drawn else drawn

/-- The screen shows the strokes drawn, one over the other. -/
def Shown (drawn : List Stroke) (s : State) : Prop :=
  s.screen = drawn.foldr (fun t picture => picture.flip t.picture) .blank

theorem Shown.pixel? {drawn : List Stroke} {s : State} (shown : Shown drawn s) (x y : Nat) :
    s.screen.pixel? x y =
      if x < 64 ∧ y < 32 then some (decide (drawn.countP (·.covers x y) % 2 = 1)) else none := by
  split
  next inside =>
    have blank := Screen.pixel?_blank inside.1 inside.2
    rw [shown, Screen.pixel?_flips (fun t => t.pixel?_picture inside.1 inside.2) blank,
      Bool.false_xor]
  next outside => exact dif_neg outside

end Stroke

namespace State

theorem carryOut_clear {strict : Bool} {s after : State}
    (carried : s.carryOut strict 0x00E0 = .ok after) : after.screen = .blank := by
  cases carried
  rfl

theorem carryOut_draw {strict : Bool} {op : Opcode} {s after : State} (family : op.family = 0xD)
    (carried : s.carryOut strict op = .ok after) :
    after.screen = s.screen.flip (Stroke.picture ⟨op, s⟩) := by
  rw [carryOut, Instruction.decode_of_draw family] at carried
  cases carried
  rfl

end State

namespace Machine

theorem tells_note : Tells Stroke.note Stroke.Shown where
  untouched screen random here := screen.trans here
  written {drawn s after strict op} carried here := by
    unfold Stroke.note
    by_cases clears : op = 0x00E0
    · rw [if_pos clears]
      exact State.carryOut_clear (clears ▸ carried)
    · rw [if_neg clears]
      by_cases draws : op.family = 0xD
      · rw [if_pos draws, Stroke.Shown, State.carryOut_draw draws carried, here]
        rfl
      · rw [if_neg draws]
        -- Nothing else paints, so the screen and the list both stay.
        have quiet : (Instruction.decode op).paints = false := by
          rw [Bool.eq_false_iff, Ne, Instruction.paints_decode_iff]
          exact not_or.mpr ⟨clears, draws⟩
        have still := State.carryOut_screen carried
        rw [quiet, if_neg Bool.false_ne_true] at still
        exact still.1.trans here

/-- The strokes drawn since the screen was last cleared, on the way that has led to the state. -/
def strokes (m : Machine) (ops : List Operation) : List Stroke :=
  (m.chronicle Stroke.note [] ops).now

theorem shown_strokes (config : Config) (random : Random.Stream) (ops : List Operation) :
    Stroke.Shown ((newWith config random).strokes ops)
      ((newWith config random).performAll ops).state := by
  have blank : Stroke.Shown [] (newWith config random).state := rfl
  exact (describes_chronicle tells_note blank rfl ops).now

theorem Change.screen_eq {m after : Machine} {op : Operation} (change : Change m op after)
    (noRewind : op ≠ .rewind) (quiet : m.paints op = false) :
    after.state.screen = m.state.screen := by
  by_cases takes : op = .takeFrame
  · subst takes
    cases change
    rfl
  · have still := change.screen noRewind takes
    rw [quiet, if_neg Bool.false_ne_true] at still
    exact still.1

/-- Without painting and rewinds the picture stays. -/
theorem screen_of_tally_eq_zero (m : Machine) {ops : List Operation} (noRewind : .rewind ∉ ops)
    (quiet : m.tally paints ops = 0) : (m.performAll ops).state.screen = m.state.screen := by
  have keep : ∀ (count : Nat) (reached : Machine), ∀ op ∈ m.primitives ops,
      (count = 0 → reached.state.screen = m.state.screen) →
      noteIf paints count reached op = 0 →
        (reached.perform op).machine.state.screen = m.state.screen := by
    intro count reached op mem same still
    have noFrame : op ≠ .runFrame := (mem_primitives mem).1
    have rewinds : op ≠ .rewind := by
      rintro rfl
      exact rewind_notMem_primitives noRewind mem
    unfold noteIf at still
    split at still
    next => cases still
    next paintless =>
      rw [Bool.not_eq_true] at paintless
      rw [(change_of_perform reached noFrame).screen_eq rewinds paintless, same still]
  rw [← performAll_primitives]
  exact record_keeps_of_mem (I := fun count reached =>
    count = 0 → reached.state.screen = m.state.screen) keep (fun _ => rfl) quiet

/-- After any operations on a new machine, a pixel is lit exactly if an odd number of the strokes drawn
since the last clearing cover it, rewinds taking back what they undo. So the picture is the same after
any other run whose strokes cover the same, in whatever order they were drawn, and operations that
neither paint nor rewind leave it as it is. -/
theorem screen_is_parity (config : Config) (random : Random.Stream) (ops : List Operation) :
    let start := newWith config random
    let reached := start.performAll ops
    (∀ x y, reached.state.screen.pixel? x y =
      if x < 64 ∧ y < 32 then
        some (decide ((start.strokes ops).countP (·.covers x y) % 2 = 1))
      else none) ∧
    (∀ config' random' ops', let other := newWith config' random'
      ((other.strokes ops').map Stroke.covers).Perm ((start.strokes ops).map Stroke.covers) →
        (other.performAll ops').state.screen = reached.state.screen) ∧
    (∀ more, .rewind ∉ more → reached.tally paints more = 0 →
      (reached.performAll more).state.screen = reached.state.screen) := by
  intro start reached
  have shown := shown_strokes config random ops
  refine ⟨shown.pixel?, ?_, fun more => screen_of_tally_eq_zero reached⟩
  intro config' random' ops' other reordered
  have shown' := shown_strokes config' random' ops'
  refine Screen.ext_pixel? fun x y => ?_
  -- The order is lost in the count already, before its parity is taken.
  have count (drawn : List Stroke) :
      drawn.countP (·.covers x y) = (drawn.map Stroke.covers).countP (· x y) := by
    rw [List.countP_map]
    rfl
  rw [shown'.pixel?, shown.pixel?, count, count, reordered.countP_eq]

end Machine

end ChipEight
