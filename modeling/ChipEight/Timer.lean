/-!
# Timers

A byte that the host counts down at a fixed pace until it is zero (the specification, §3 and §6).
-/
namespace ChipEight

structure Timer where
  value : UInt8
  deriving DecidableEq, Repr

namespace Timer

def stopped : Timer := ⟨0⟩

def isActive (t : Timer) : Bool := t.value ≠ 0

/-- One count down; a timer at zero stays there. -/
def tick (t : Timer) : Timer := if t.isActive then ⟨t.value - 1⟩ else t

theorem isActive_iff (t : Timer) : t.isActive = true ↔ 0 < t.value.toNat := by
  rw [isActive, decide_eq_true_eq, Ne, ← UInt8.toNat_inj]
  exact Nat.pos_iff_ne_zero.symm

theorem toNat_tick (t : Timer) : t.tick.value.toNat = t.value.toNat - 1 := by
  unfold tick
  split
  next active =>
    rw [isActive_iff] at active
    exact UInt8.toNat_sub_of_le t.value 1 active
  next stopped =>
    rw [isActive_iff] at stopped
    omega

end Timer

end ChipEight
