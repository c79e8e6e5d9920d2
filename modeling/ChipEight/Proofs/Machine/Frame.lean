import ChipEight.Proofs.Machine.Countdown
import ChipEight.Proofs.Machine.Failure
/-!
# Frames from steps

A frame is as many steps in a row as its settings say, a `Walk`, and then both timers counted down at
once. A step that fails ends the frame where it is. So a frame can be cut in two, the first of them
without ticks (`frame_is_steps_then_ticks`).
-/
namespace ChipEight.Machine

/-! ## Steps in a row -/

/-- `m.Walk count last`: the next `count` steps all succeed and lead to `last`. -/
inductive Walk : Machine → Nat → Machine → Prop where
  | stay (m : Machine) : Walk m 0 m
  | step {m last : Machine} {count : Nat} {op : Opcode} (done : m.step.result = .ok op)
      (rest : Walk m.step.machine count last) : Walk m (count + 1) last

/-- Either a number of steps can be walked, or there is a first among them that fails. -/
theorem walk_or_fault (m : Machine) (count : Nat) :
    (∃ last, m.Walk count last) ∨
    ∃ k reached f, k < count ∧ m.Walk k reached ∧ reached.step.result = .error f := by
  induction count generalizing m with
  | zero => exact .inl ⟨m, .stay m⟩
  | succ count ih =>
    cases done : m.step.result with
    | error f => exact .inr ⟨0, m, f, Nat.succ_pos count, .stay m, done⟩
    | ok op =>
      rcases ih m.step.machine with ⟨last, walk⟩ | ⟨k, reached, f, within, walk, failed⟩
      · exact .inl ⟨last, .step done walk⟩
      · exact .inr ⟨k + 1, reached, f, Nat.succ_lt_succ within, .step done walk, failed⟩

/-- The steps of a frame that meets no fault. -/
theorem stepsAfter_of_walk {m last : Machine} {count : Nat} (walk : m.Walk count last) (taken : Nat)
    (logged : List Event) :
    (stepsAfter taken logged m count).result = .ok (taken + count) ∧
      (stepsAfter taken logged m count).machine = last := by
  induction walk generalizing taken logged with
  | stay m => exact ⟨rfl, rfl⟩
  | @step m last count op done rest ih =>
    rw [stepsAfter_succ_of_ok done, Nat.add_comm count 1, ← Nat.add_assoc]
    exact ih _ _

/-- The steps of a frame up to the first that fails. -/
theorem stepsAfter_of_fault {m reached : Machine} {k count : Nat} {f : Fault}
    (walk : m.Walk k reached) (within : k < count) (failed : reached.step.result = .error f)
    (taken : Nat) (logged : List Event) :
    (stepsAfter taken logged m count).result = .error f ∧
      (stepsAfter taken logged m count).machine = reached.step.machine := by
  induction walk generalizing count taken logged with
  | stay m =>
    obtain ⟨more, rfl⟩ : ∃ more, count = more + 1 := ⟨count - 1, by omega⟩
    rw [stepsAfter_succ_of_error failed]
    exact ⟨rfl, rfl⟩
  | step done rest ih =>
    obtain ⟨more, rfl⟩ : ∃ more, count = more + 1 := ⟨count - 1, by omega⟩
    rw [stepsAfter_succ_of_ok done]
    exact ih (by omega) failed _ _

theorem Walk.split {m last : Machine} {a b : Nat} (walk : m.Walk (a + b) last) :
    ∃ between, m.Walk a between ∧ between.Walk b last := by
  induction a generalizing m with
  | zero => exact ⟨m, .stay m, by rwa [Nat.zero_add] at walk⟩
  | succ a ih =>
    rw [Nat.succ_add] at walk
    cases walk with
    | step done rest =>
      obtain ⟨between, front, back⟩ := ih rest
      exact ⟨between, .step done front, back⟩

/-! ## The settings of a frame -/

/-- The machine with other settings for its frames. -/
def withCadence (m : Machine) (instructions ticks : Nat) : Machine :=
  { m with config :=
    { m.config with instructionsPerFrame := instructions, timerTicksPerFrame := ticks } }

theorem step_withCadence (m : Machine) (n t : Nat) :
    (m.withCadence n t).step.result = m.step.result ∧
    (m.withCadence n t).step.machine = m.step.machine.withCadence n t := by
  cases fetched : m.peek m.state.pc with
  | none =>
    obtain ⟨stays, failed⟩ := step_of_none fetched
    obtain ⟨stays', failed'⟩ := step_of_none (m := m.withCadence n t) fetched
    rw [stays, failed, stays', failed']
    exact ⟨rfl, rfl⟩
  | some op =>
    cases carried : m.advance.state.carryOut m.config.strict op with
    | error f =>
      obtain ⟨stays, failed⟩ := step_of_error fetched carried
      obtain ⟨stays', failed'⟩ := step_of_error (m := m.withCadence n t) fetched carried
      rw [stays, failed, stays', failed']
      exact ⟨rfl, rfl⟩
    | ok after =>
      obtain ⟨reached, done⟩ := step_of_ok fetched carried
      obtain ⟨reached', done'⟩ := step_of_ok (m := m.withCadence n t) fetched carried
      rw [reached, done, reached', done']
      exact ⟨rfl, rfl⟩

/-- Steps do not look at the settings of frames. -/
theorem Walk.withCadence {m last : Machine} {count : Nat} (walk : m.Walk count last) (n t : Nat) :
    (m.withCadence n t).Walk count (last.withCadence n t) := by
  induction walk with
  | stay m => exact .stay _
  | @step m last count op done rest ih =>
    obtain ⟨result, machine⟩ := step_withCadence m n t
    apply Walk.step (result.trans done)
    rw [machine]
    exact ih

/-! ## Frames -/

/-- A frame whose steps all succeed. -/
theorem runFrame_of_walk {m last : Machine} (walk : m.Walk m.config.instructionsPerFrame last) :
    m.runFrame.machine = last.countedDown m.config.timerTicksPerFrame ∧
    m.runFrame.result = .ok ⟨m.config.instructionsPerFrame,
      decide (m.config.timerTicksPerFrame < last.sounding),
      decide (0 < last.sounding ∧ last.sounding ≤ m.config.timerTicksPerFrame)⟩ := by
  obtain ⟨done, reached⟩ := stepsAfter_of_walk walk 0 []
  have result := runFrame_result_of_ok done
  obtain ⟨active, stopped⟩ := runFrame_report result
  have sounding : m.soundingAfterSteps = last.sounding := congrArg Machine.sounding reached
  constructor
  · have ended : m.runFrame.machine = _ := runFrame_machine_of_ok done
    rw [ended, ticks_min, ticks_machine, steps, reached]
  · simp only at active stopped
    rw [result, active, stopped, sounding]

/-- A frame with a step that fails. -/
theorem runFrame_of_fault {m reached : Machine} {k : Nat} {f : Fault} (walk : m.Walk k reached)
    (within : k < m.config.instructionsPerFrame) (failed : reached.step.result = .error f) :
    m.runFrame.machine = reached ∧ m.runFrame.result = .error f := by
  obtain ⟨ended, stopped⟩ := stepsAfter_of_fault walk within failed 0 []
  obtain ⟨machine, result⟩ := runFrame_of_error ended
  exact ⟨machine.trans (stopped.trans (step_machine_of_error failed)), result⟩

/-- The steps of a frame all succeed, or one of them is the first to fail. If they succeed, the frame leaves
the machine as they do, but for the timers, which are counted down by all its ticks and not below zero;
the sound is reported as on if it outlasts the ticks, and as stopped if it was on and does not. If a step
fails, the frame fails with it and leaves the machine as the steps before it do. So one frame does what
two frames do that share its instructions and of which the second has all the ticks. -/
theorem frame_is_steps_then_ticks (m : Machine) :
    let n := m.config.instructionsPerFrame
    let t := m.config.timerTicksPerFrame
    ((∃ last, m.Walk n last) ∨
      ∃ k reached f, k < n ∧ m.Walk k reached ∧ reached.step.result = .error f) ∧
    (∀ last, m.Walk n last →
      m.runFrame.machine = last.countedDown t ∧
      m.runFrame.result = .ok ⟨n, decide (last.sounding > t),
        decide (0 < last.sounding ∧ last.sounding ≤ t)⟩) ∧
    (∀ k reached f, k < n → m.Walk k reached → reached.step.result = .error f →
      m.runFrame.machine = reached ∧ m.runFrame.result = .error f) ∧
    (∀ a b ticks last, m.Walk (a + b) last →
      let whole := (m.withCadence (a + b) ticks).runFrame
      let front := (m.withCadence a 0).runFrame
      let back := (front.machine.withCadence b ticks).runFrame
      back.machine.withCadence (a + b) ticks = whole.machine ∧
      ∃ one first second, whole.result = .ok one ∧ front.result = .ok first ∧
        back.result = .ok second ∧ one.executed = first.executed + second.executed ∧
        one.soundActive = second.soundActive ∧ one.beepStopped = second.beepStopped) := by
  intro n t
  refine ⟨walk_or_fault m n, fun last => runFrame_of_walk, ?_, ?_⟩
  · exact fun k reached f within walk => runFrame_of_fault walk within
  · intro a b ticks last walk whole front back
    obtain ⟨between, early, late⟩ := walk.split
    obtain ⟨wholeEnds, wholeResult⟩ := runFrame_of_walk (walk.withCadence (a + b) ticks)
    obtain ⟨frontEnds, frontResult⟩ := runFrame_of_walk (early.withCadence a 0)
    -- Without ticks the timers stay, so the second frame starts where the steps of the first end.
    have untouched : front.machine.withCadence b ticks = between.withCadence b ticks := by
      rw [frontEnds, countedDown]
      simp only [withCadence, Timer.down_zero]
    have rest := late.withCadence b ticks
    rw [← untouched] at rest
    obtain ⟨backEnds, backResult⟩ := runFrame_of_walk rest
    refine ⟨?_, _, _, _, wholeResult, frontResult, backResult, rfl, rfl, rfl⟩
    rw [backEnds, wholeEnds]
    rfl

end ChipEight.Machine
