import ChipEight.Instruction.Effect
import ChipEight.Proofs.Instruction.Pattern
/-!
# Sums, differences and shifts

The five instructions that leave a flag beside their result, reckoned in integers, which neither carry
nor borrow. A sum or a difference writes its flag last and a shift writes it first. That shows where the
result goes to the flag register itself, and only there (`flag_arithmetic_exact`).
-/
namespace ChipEight

/-- Of two registers set one after the other, the second keeps its value even if it is the first. -/
theorem State.v_setV_setV (s : State) (first second r : Register) (b c : UInt8) :
    ((s.setV first b).setV second c).v r =
      if second = r then c else if first = r then b else s.v r := by
  rw [v_setV, v_setV]

namespace Instruction

/-! ## Bytes -/

/-- A result that is a byte, beside a flag that is a bit, with `exact` between them. -/
structure Flagged (exact : Int → Int → Prop) (result flag : Int) : Prop where
  byte : 0 ≤ result ∧ result < 256
  bit : flag = 0 ∨ flag = 1
  related : exact result flag

theorem toNat_carry (a b : UInt8) :
    (carry a b).toNat = if 256 ≤ a.toNat + b.toNat then 1 else 0 := by
  unfold carry
  split
  · rw [if_neg (by omega)]
    rfl
  · rw [if_pos (by omega)]
    rfl

theorem toNat_noBorrow (a b : UInt8) :
    (noBorrow a b).toNat = if b.toNat ≤ a.toNat then 1 else 0 := by
  simp only [noBorrow, UInt8.le_iff_toNat_le]
  split <;> rfl

theorem flagged_sum (a b : UInt8) :
    Flagged (fun result flag => 256 * flag + result = a.toNat + b.toNat)
      (a + b).toNat (carry a b).toNat := by
  have := a.toNat_lt
  have := b.toNat_lt
  rw [toNat_carry, UInt8.toNat_add]
  split <;> constructor <;> omega

theorem flagged_difference (a b : UInt8) :
    Flagged (fun result flag => result - 256 * (1 - flag) = a.toNat - b.toNat)
      (a - b).toNat (noBorrow a b).toNat := by
  have := a.toNat_lt
  have := b.toNat_lt
  rw [toNat_noBorrow, UInt8.toNat_sub]
  split <;> constructor <;> omega

theorem flagged_half (b : UInt8) :
    Flagged (fun result flag => 2 * result + flag = b.toNat) (b / 2).toNat (b % 2).toNat := by
  have := b.toNat_lt
  rw [UInt8.toNat_div, UInt8.toNat_mod]
  simp only [UInt8.reduceToNat]
  constructor <;> omega

theorem flagged_double (b : UInt8) :
    Flagged (fun result flag => 256 * flag + result = 2 * b.toNat) (b + b).toNat (b / 128).toNat := by
  have := b.toNat_lt
  rw [UInt8.toNat_div, UInt8.toNat_add]
  simp only [UInt8.reduceToNat]
  constructor <;> omega

/-! ## Registers -/

/-- The opcode runs, and afterwards `P` holds between the values of `VX` and of the flag register. No
other register has changed. -/
def Leaves (op : Opcode) (s : State) (x : Register) (P : Int → Int → Prop) : Prop :=
  ∃ after, (decode op).run s = .ok after ∧ P (after.v x).toNat (after.v State.flag).toNat ∧
    ∀ r, r ≠ x → r ≠ State.flag → after.v r = s.v r

section Order

variable {op : Opcode} {s : State} {x : Register} {result flag : UInt8} {P : Int → Int → Prop}

/-- Where the flag is written last, it has the last word. -/
theorem leaves_of_flag_last
    (ran : (decode op).run s = .ok ((s.setV x result).setV State.flag flag))
    (related : P (if x = State.flag then flag else result).toNat flag.toNat) : Leaves op s x P := by
  refine ⟨_, ran, ?_, fun r other noFlag => ?_⟩
  · simpa only [State.v_setV_setV, if_true, eq_comm] using related
  · rw [State.v_setV_setV, if_neg noFlag.symm, if_neg other.symm]

/-- Where the result is written last, it has the last word. -/
theorem leaves_of_result_last
    (ran : (decode op).run s = .ok ((s.setV State.flag flag).setV x result))
    (related : P result.toNat (if x = State.flag then result else flag).toNat) : Leaves op s x P := by
  refine ⟨_, ran, ?_, fun r other noFlag => ?_⟩
  · simpa only [State.v_setV_setV, if_true] using related
  · rw [State.v_setV_setV, if_neg other.symm, if_neg noFlag.symm]

end Order

theorem decode_arithmetic (x y : Register) :
    decode (.withDigits 0x8 x y 0x4) = add x y ∧ decode (.withDigits 0x8 x y 0x5) = sub x y ∧
    decode (.withDigits 0x8 x y 0x6) = shiftRight x y ∧
    decode (.withDigits 0x8 x y 0x7) = subFrom x y ∧
    decode (.withDigits 0x8 x y 0xE) = shiftLeft x y := by
  have digits (n : Nibble) := Opcode.nibbles_withDigits 0x8 x y n
  simp only [Opcode.nibbles, List.cons.injEq, and_true] at digits
  refine ⟨?_, ?_, ?_, ?_, ?_⟩ <;>
  · rw [decode, (digits _).1, (digits _).2.1, (digits _).2.2.1, (digits _).2.2.2]
    rfl

/-- Whichever registers `X` and `Y` name, the same one or the flag register included, the sum, the two
differences and the two shifts run and change no other register than `VX` and the flag. Unless the result
goes to the flag register, result and flag together are the exact one. If it does, a sum or a difference
leaves the flag there and a shift leaves the result. -/
theorem flag_arithmetic_exact (s : State) (x y : Register) :
    let a : Int := (s.v x).toNat
    let b : Int := (s.v y).toNat
    let op (n : Nibble) : Opcode := .withDigits 0x8 x y n
    (x ≠ State.flag →
      Leaves (op 0x4) s x (Flagged fun result flag => 256 * flag + result = a + b) ∧
      Leaves (op 0x5) s x (Flagged fun result flag => result - 256 * (1 - flag) = a - b) ∧
      Leaves (op 0x7) s x (Flagged fun result flag => result - 256 * (1 - flag) = b - a) ∧
      Leaves (op 0x6) s x (Flagged fun result flag => 2 * result + flag = b) ∧
      Leaves (op 0xE) s x (Flagged fun result flag => 256 * flag + result = 2 * b)) ∧
    (x = State.flag →
      Leaves (op 0x4) s x (fun _ flag => flag = if 256 ≤ a + b then 1 else 0) ∧
      Leaves (op 0x5) s x (fun _ flag => flag = if b ≤ a then 1 else 0) ∧
      Leaves (op 0x7) s x (fun _ flag => flag = if a ≤ b then 1 else 0) ∧
      Leaves (op 0x6) s x (fun _ flag => flag = b / 2) ∧
      Leaves (op 0xE) s x (fun _ flag => flag = 2 * b % 256)) := by
  intro a b op
  obtain ⟨sum, difference, half, reverse, double⟩ := decode_arithmetic x y
  constructor
  · intro noFlag
    refine ⟨?_, ?_, ?_, ?_, ?_⟩
    · apply leaves_of_flag_last (congrArg (·.run s) sum)
      rw [if_neg noFlag]
      exact flagged_sum _ _
    · apply leaves_of_flag_last (congrArg (·.run s) difference)
      rw [if_neg noFlag]
      exact flagged_difference _ _
    · apply leaves_of_flag_last (congrArg (·.run s) reverse)
      rw [if_neg noFlag]
      exact flagged_difference _ _
    · apply leaves_of_result_last (congrArg (·.run s) half)
      rw [if_neg noFlag]
      exact flagged_half _
    · apply leaves_of_result_last (congrArg (·.run s) double)
      rw [if_neg noFlag]
      exact flagged_double _
  · intro toFlag
    refine ⟨?_, ?_, ?_, ?_, ?_⟩
    · apply leaves_of_flag_last (congrArg (·.run s) sum)
      rw [toNat_carry]
      split <;> omega
    · apply leaves_of_flag_last (congrArg (·.run s) difference)
      rw [toNat_noBorrow]
      split <;> omega
    · apply leaves_of_flag_last (congrArg (·.run s) reverse)
      rw [toNat_noBorrow]
      split <;> omega
    · apply leaves_of_result_last (congrArg (·.run s) half)
      rw [if_pos toFlag, UInt8.toNat_div]
      rfl
    · apply leaves_of_result_last (congrArg (·.run s) double)
      rw [if_pos toFlag, UInt8.toNat_add]
      omega

end Instruction

end ChipEight
