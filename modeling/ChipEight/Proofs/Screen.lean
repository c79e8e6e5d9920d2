import ChipEight.Screen
/-!
# Pictures drawn over each other

Drawing flips pixels, so a pixel ends up lit according to whether it was flipped an odd number of times
(`pixel?_flips`), and the order of the drawings does not matter.
-/
namespace ChipEight.Screen

theorem pixel?_of_lt (s : Screen) {x y : Nat} (left : x < 64) (low : y < 32) :
    s.pixel? x y = some (s.rows[y].getMsbD x) :=
  dif_pos ⟨left, low⟩

theorem pixel?_outside (s : Screen) {x y : Nat} (outside : ¬(x < 64 ∧ y < 32)) :
    s.pixel? x y = none :=
  dif_neg outside

/-- The bits of a byte from the left. -/
theorem getMsbD_toBitVec (b : UInt8) (j : Nat) :
    b.toBitVec.getMsbD j = (decide (j < 8) && b.toNat.testBit (7 - j)) := by
  rw [BitVec.getMsbD_eq_getLsbD]
  rfl

theorem ext_pixel? {s t : Screen} (same : ∀ x y, s.pixel? x y = t.pixel? x y) : s = t := by
  have rows : s.rows = t.rows := by
    refine Vector.ext fun y low => BitVec.eq_of_getMsbD_eq fun x left => ?_
    have here := same x y
    rw [pixel?_of_lt s left low, pixel?_of_lt t left low, Option.some.injEq] at here
    exact here
  cases s
  cases t
  exact congrArg Screen.mk rows

/-- A pixel on which pictures are drawn one after the other ends up as it was, or the other way if an odd
number of them light it. -/
theorem pixel?_flips {α : Type} {x y : Nat} {picture : α → Screen} {lights : α → Bool}
    (each : ∀ a, (picture a).pixel? x y = some (lights a)) {s : Screen} {p : Bool}
    (before : s.pixel? x y = some p) (drawn : List α) :
    (drawn.foldr (fun a t => t.flip (picture a)) s).pixel? x y =
      some (p ^^ decide (drawn.countP lights % 2 = 1)) := by
  induction drawn with
  | nil =>
    rw [List.foldr_nil, before]
    simp
  | cons a drawn ih =>
    rw [List.foldr_cons, pixel?_flip, ih, each, List.countP_cons]
    generalize drawn.countP lights = count
    cases lights a with
    | false => simp
    | true =>
      have parity : decide ((count + 1) % 2 = 1) = !decide (count % 2 = 1) := by
        rw [← decide_not, decide_eq_decide]
        omega
      simp [parity]

end ChipEight.Screen
