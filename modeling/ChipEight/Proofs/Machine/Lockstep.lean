import ChipEight.Proofs.Machine.Transcript
/-!
# Two machines in lockstep

When the same operations are done to two machines that are related in some way, they give the same
answers as long as each single operation keeps the relation. `Lockstep` is what has to be shown of single
operations, and `Lockstep.answers` what follows for runs, frames included.
-/
namespace ChipEight.Machine

/-- Single operations give the same answer on two machines related by `R` and keep them so, as long as
the first machine's answer is one that is `allowed`. -/
structure Lockstep (R : Machine → Machine → Prop) (allowed : Operation → Answer → Prop) : Prop where
  cadence {m n : Machine} (related : R m n) :
    n.config.instructionsPerFrame = m.config.instructionsPerFrame ∧
    n.config.timerTicksPerFrame = m.config.timerTicksPerFrame
  single {m n : Machine} (op : Operation) (related : R m n) (noFrame : op ≠ .runFrame)
    (fine : allowed op (m.perform op).result) :
    (n.perform op).result = (m.perform op).result ∧ R (m.perform op).machine (n.perform op).machine
  stepped (op : Opcode) : allowed .step (.opcode (.ok op))
  ticked (running : Bool) :
    allowed .tickDelay (.flag running) ∧ allowed .tickSound (.flag running)
  /-- A frame that fails answers for the step that failed. -/
  failed {f : Fault} (fine : allowed .runFrame (.frame (.error f))) :
    allowed .step (.opcode (.error f))

namespace Lockstep

variable {R : Machine → Machine → Prop} {allowed : Operation → Answer → Prop}
  (lockstep : Lockstep R allowed)

include lockstep

theorem step {m n : Machine} (related : R m n)
    (fine : ∀ f, m.step.result = .error f → allowed .runFrame (.frame (.error f))) :
    n.step.result = m.step.result ∧ R m.step.machine n.step.machine := by
  have fine : allowed .step (.opcode m.step.result) := by
    cases done : m.step.result with
    | ok op => exact lockstep.stepped op
    | error f => exact lockstep.failed (fine f done)
  obtain ⟨result, after⟩ := lockstep.single .step related nofun fine
  exact ⟨Answer.opcode.inj result, after⟩

theorem stepsAfter {m n : Machine} (related : R m n) (logged earlier : List Event)
    (taken count : Nat)
    (fine : ∀ f, (stepsAfter taken logged m count).result = .error f →
      allowed .runFrame (.frame (.error f))) :
    (Machine.stepsAfter taken earlier n count).result =
      (Machine.stepsAfter taken logged m count).result ∧
    R (Machine.stepsAfter taken logged m count).machine
      (Machine.stepsAfter taken earlier n count).machine := by
  induction count generalizing m n logged earlier taken with
  | zero => exact ⟨rfl, related⟩
  | succ count ih =>
    cases done : m.step.result with
    | error f =>
      rw [stepsAfter_succ_of_error done] at fine ⊢
      obtain ⟨result, after⟩ := lockstep.step related fun g failed => by
        obtain rfl : f = g := Except.error.inj (done.symm.trans failed)
        exact fine f rfl
      rw [stepsAfter_succ_of_error (result.trans done)]
      exact ⟨rfl, after⟩
    | ok op =>
      rw [stepsAfter_succ_of_ok done] at fine ⊢
      obtain ⟨result, after⟩ := lockstep.step related fun g failed => by
        rw [done] at failed
        cases failed
      rw [stepsAfter_succ_of_ok (result.trans done)]
      exact ih after _ _ _ fine

theorem sound {m n : Machine} (related : R m n) :
    n.state.sound.isActive = m.state.sound.isActive :=
  Answer.flag.inj (lockstep.single .tickSound related nofun (lockstep.ticked _).2).1

theorem ticks {m n : Machine} (related : R m n) (count : Nat) :
    (n.ticks count).2 = (m.ticks count).2 ∧ R (m.ticks count).1 (n.ticks count).1 := by
  induction count generalizing m n with
  | zero => exact ⟨rfl, related⟩
  | succ count ih =>
    have delayed := (lockstep.single .tickDelay related nofun (lockstep.ticked _).1).2
    obtain ⟨told, sounded⟩ := lockstep.single .tickSound delayed nofun (lockstep.ticked _).2
    have before : n.tickDelay.machine.tickSound.result = m.tickDelay.machine.tickSound.result :=
      Answer.flag.inj told
    have after : n.tickDelay.machine.tickSound.machine.state.sound.isActive =
        m.tickDelay.machine.tickSound.machine.state.sound.isActive := lockstep.sound sounded
    obtain ⟨later, ends⟩ := ih sounded
    refine ⟨?_, ends⟩
    simp only [Machine.ticks]
    rw [before, after]
    exact congrArg _ later

theorem runFrame {m n : Machine} (related : R m n)
    (fine : allowed .runFrame (.frame m.runFrame.result)) :
    n.runFrame.result = m.runFrame.result ∧ R m.runFrame.machine n.runFrame.machine := by
  obtain ⟨instructions, ticks⟩ := lockstep.cadence related
  have stepped : (n.steps n.config.instructionsPerFrame).result =
      (m.steps m.config.instructionsPerFrame).result ∧
      R (m.steps m.config.instructionsPerFrame).machine
        (n.steps n.config.instructionsPerFrame).machine := by
    rw [instructions]
    refine lockstep.stepsAfter related [] [] 0 _ fun f failed => ?_
    rwa [(runFrame_of_error failed).2] at fine
  obtain ⟨result, after⟩ := stepped
  cases done : (m.steps m.config.instructionsPerFrame).result with
  | error f =>
    rw [done] at result
    rw [(runFrame_of_error done).1, (runFrame_of_error done).2, (runFrame_of_error result).1,
      (runFrame_of_error result).2]
    exact ⟨rfl, after⟩
  | ok _ =>
    rw [done] at result
    obtain ⟨stopped, ends⟩ := lockstep.ticks after (min m.config.timerTicksPerFrame 255)
    rw [runFrame_result_of_ok done, runFrame_result_of_ok result, runFrame_machine_of_ok done,
      runFrame_machine_of_ok result, ticks, stopped, lockstep.sound ends, instructions]
    exact ⟨rfl, instructions ▸ ends⟩

/-- A host cannot tell machines in lockstep apart, and they stay so after each operation of a run. -/
theorem answers {m n : Machine} (related : R m n) {ops : List Operation}
    (fine : ∀ told ∈ ops.zip (m.answers ops), allowed told.1 told.2) :
    n.answers ops = m.answers ops ∧
    ∀ front, front <+: ops → R (m.performAll front) (n.performAll front) := by
  induction ops generalizing m n with
  | nil =>
    refine ⟨rfl, fun front initial => ?_⟩
    rw [List.prefix_nil.mp initial]
    exact related
  | cons op ops ih =>
    rw [answers_cons, List.zip_cons_cons, List.forall_mem_cons] at fine
    have both : (n.perform op).result = (m.perform op).result ∧
        R (m.perform op).machine (n.perform op).machine := by
      by_cases frame : op = .runFrame
      · subst frame
        obtain ⟨result, after⟩ := lockstep.runFrame related fine.1
        exact ⟨congrArg Answer.frame result, after⟩
      · exact lockstep.single op related frame fine.1
    obtain ⟨rest, later⟩ := ih both.2 fine.2
    rw [answers_cons, answers_cons, both.1, rest]
    refine ⟨rfl, fun front initial => ?_⟩
    rcases List.prefix_cons_iff.mp initial with rfl | ⟨more, rfl, inside⟩
    · exact related
    · exact later more inside

end Lockstep

end ChipEight.Machine
