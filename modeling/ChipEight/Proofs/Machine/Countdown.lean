import ChipEight.Proofs.Machine.Run
/-!
# Counting down

What the ticks at the end of a frame make of the timers, and what a frame reports of the sound timer: all
of it follows from what they are at when the steps of the frame are done.
-/
namespace ChipEight

namespace Timer

/-- The timer `count` ticks later. -/
def down (t : Timer) (count : Nat) : Timer := ⟨.ofNat (t.value.toNat - min t.value.toNat count)⟩

theorem ext_toNat {t u : Timer} (same : t.value.toNat = u.value.toNat) : t = u :=
  congrArg Timer.mk (UInt8.toNat_inj.mp same)

theorem toNat_down (t : Timer) (count : Nat) :
    (t.down count).value.toNat = t.value.toNat - count := by
  have := t.value.toNat_lt
  rw [down, UInt8.toNat_ofNat']
  omega

theorem down_zero (t : Timer) : t.down 0 = t := by
  apply ext_toNat
  rw [toNat_down, Nat.sub_zero]

theorem down_tick (t : Timer) (count : Nat) : t.tick.down count = t.down (count + 1) := by
  apply ext_toNat
  rw [toNat_down, toNat_down, toNat_tick]
  omega

/-- A byte is at zero after 255 ticks. -/
theorem down_min (t : Timer) (count : Nat) : t.down (min count 255) = t.down count := by
  have := t.value.toNat_lt
  apply ext_toNat
  rw [toNat_down, toNat_down]
  omega

end Timer

namespace Machine

/-- The machine with both timers `count` ticks later. -/
def countedDown (m : Machine) (count : Nat) : Machine :=
  { m with state :=
    { m.state with delay := m.state.delay.down count, sound := m.state.sound.down count } }

theorem ticks_machine (m : Machine) (count : Nat) : (m.ticks count).1 = m.countedDown count := by
  induction count generalizing m with
  | zero =>
    rw [countedDown, Timer.down_zero, Timer.down_zero]
    rfl
  | succ count ih =>
    change (m.tickDelay.machine.tickSound.machine.ticks count).1 = _
    rw [ih, countedDown, countedDown]
    simp only [tickDelay, tickSound, Timer.down_tick]

/-- What the sound timer is at. -/
def sounding (m : Machine) : Nat := m.state.sound.value.toNat

theorem isActive_sound (m : Machine) : m.state.sound.isActive = decide (0 < m.sounding) := by
  rw [Bool.eq_iff_iff, Timer.isActive_iff, decide_eq_true_eq, sounding]

theorem sounding_countedDown (m : Machine) (count : Nat) :
    (m.countedDown count).sounding = m.sounding - count :=
  m.state.sound.toNat_down count

/-- The sound timer runs out in ticks if it was on and there are as many of them as it was at. -/
theorem ticks_stopped (m : Machine) (count : Nat) :
    (m.ticks count).2 = decide (0 < m.sounding ∧ m.sounding ≤ count) := by
  induction count generalizing m with
  | zero =>
    have none : ¬(0 < m.sounding ∧ m.sounding ≤ 0) := by omega
    exact (decide_eq_false none).symm
  | succ count ih =>
    let ticked := m.tickDelay.machine.tickSound.machine
    have once : ticked.sounding = m.sounding - 1 := m.state.sound.toNat_tick
    have now : m.tickDelay.machine.tickSound.result = decide (0 < m.sounding) := isActive_sound m
    change (m.tickDelay.machine.tickSound.result && !ticked.state.sound.isActive ||
      (ticked.ticks count).2) = _
    rw [now, isActive_sound, ih ticked, once, Bool.eq_iff_iff]
    simp only [Bool.or_eq_true, Bool.and_eq_true, Bool.not_eq_true', decide_eq_true_eq,
      decide_eq_false_iff_not]
    omega

/-- Both timers hold a byte, so that the ticks beyond 255 do nothing. -/
theorem ticks_min (m : Machine) (count : Nat) : m.ticks (min count 255) = m.ticks count := by
  have byte : m.sounding ≤ 255 := Nat.le_of_lt_succ (UInt8.toNat_lt _)
  refine Prod.ext ?_ ?_
  · rw [ticks_machine, ticks_machine, countedDown, countedDown, Timer.down_min, Timer.down_min]
  · rw [ticks_stopped, ticks_stopped, decide_eq_decide]
    omega

/-- What the sound timer is at when the steps of a frame are done. -/
def soundingAfterSteps (m : Machine) : Nat := (m.steps m.config.instructionsPerFrame).machine.sounding

/-- A frame that does not fail reports the sound as on if the timer outlasts its ticks, and as stopped if
it was on and does not. -/
theorem runFrame_report {m : Machine} {report : FrameReport}
    (done : m.runFrame.result = .ok report) :
    report.soundActive = decide (m.config.timerTicksPerFrame < m.soundingAfterSteps) ∧
    report.beepStopped = decide (0 < m.soundingAfterSteps ∧
      m.soundingAfterSteps ≤ m.config.timerTicksPerFrame) := by
  cases stepped : (m.steps m.config.instructionsPerFrame).result with
  | error f =>
    rw [(runFrame_of_error stepped).2] at done
    cases done
  | ok _ =>
    rw [runFrame_result_of_ok stepped, Except.ok.injEq] at done
    rw [← done, isActive_sound, runFrame_machine_of_ok stepped, ticks_min, ticks_machine,
      sounding_countedDown, ticks_stopped]
    refine ⟨?_, rfl⟩
    rw [decide_eq_decide, soundingAfterSteps]
    omega

end Machine

end ChipEight
