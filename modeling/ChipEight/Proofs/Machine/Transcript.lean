import ChipEight.Proofs.Machine.Run
/-!
# Transcripts

What a host gets to see of a run: the answer to each operation, and the messages logged on the way. A
frame logs what its steps log (`logged_primitives`), so that messages can be counted one operation at a
time (`countP_logged`).
-/
namespace ChipEight.Machine

/-- The outcome of each operation of a run. -/
def outcomes (m : Machine) : List Operation → List (Outcome Answer)
  | [] => []
  | op :: ops => m.perform op :: (m.perform op).machine.outcomes ops

/-- What a host is answered, operation by operation. -/
def answers (m : Machine) (ops : List Operation) : List Answer :=
  (m.outcomes ops).map Outcome.result

/-- All that is logged in a run, the earliest message first. -/
def logged (m : Machine) (ops : List Operation) : List Event :=
  (m.outcomes ops).flatMap Outcome.log

theorem answers_cons (m : Machine) (op : Operation) (ops : List Operation) :
    m.answers (op :: ops) = (m.perform op).result :: (m.perform op).machine.answers ops := rfl

theorem logged_cons (m : Machine) (op : Operation) (ops : List Operation) :
    m.logged (op :: ops) = (m.perform op).log ++ (m.perform op).machine.logged ops := rfl

theorem logged_append (m : Machine) (ops more : List Operation) :
    m.logged (ops ++ more) = m.logged ops ++ (m.performAll ops).logged more := by
  induction ops generalizing m with
  | nil => rfl
  | cons op ops ih =>
    rw [List.cons_append, logged_cons, ih, logged_cons, List.append_assoc, performAll_cons]

/-! ## Messages of a frame -/

theorem stepsAfter_log (m : Machine) (count taken : Nat) (earlier : List Event) :
    (stepsAfter taken earlier m count).log = earlier.reverse ++ m.logged (m.attempts count) := by
  induction count generalizing m taken earlier with
  | zero => exact (List.append_nil _).symm
  | succ count ih =>
    cases done : m.step.result with
    | error f =>
      rw [stepsAfter_succ_of_error done, attempts, done, List.reverse_append, List.reverse_reverse]
      exact congrArg _ (List.append_nil _).symm
    | ok op =>
      rw [stepsAfter_succ_of_ok done, attempts_succ_of_ok done, ih, logged_cons,
        List.reverse_append, List.reverse_reverse, List.append_assoc]
      rfl

/-- Timers are silent. -/
theorem logged_ticking (m : Machine) (count : Nat) : m.logged (ticking count) = [] := by
  induction count generalizing m with
  | zero => rfl
  | succ count ih => exact ih m.tickDelay.machine.tickSound.machine

/-- A frame logs what its steps log. -/
theorem runFrame_log (m : Machine) :
    m.runFrame.log = m.logged (m.attempts m.config.instructionsPerFrame) := by
  have stepped : (m.steps m.config.instructionsPerFrame).log = _ := stepsAfter_log m _ 0 []
  rw [List.reverse_nil, List.nil_append] at stepped
  rw [← stepped, runFrame]
  cases done : (m.steps m.config.instructionsPerFrame).result <;> rfl

theorem logged_parts (m : Machine) (op : Operation) : m.logged (m.parts op) = (m.perform op).log := by
  cases op with
  | runFrame =>
    change m.logged (m.parts .runFrame) = m.runFrame.log
    rw [parts, logged_append, runFrame_log]
    split
    · rw [logged_ticking, List.append_nil]
    · exact List.append_nil _
  | _ => exact List.append_nil _

theorem logged_primitives (m : Machine) (ops : List Operation) :
    m.logged (m.primitives ops) = m.logged ops := by
  induction ops generalizing m with
  | nil => rfl
  | cons op ops ih => rw [primitives, logged_append, logged_parts, performAll_parts, ih, logged_cons]

/-! ## Counting -/

/-- Counts the operations that `p` holds of. -/
def noteIf (p : Machine → Operation → Bool) (count : Nat) (m : Machine) (op : Operation) : Nat :=
  if p m op then count + 1 else count

/-- How often, in a run with its frames taken apart, an operation is such as `p` says. -/
def tally (p : Machine → Operation → Bool) (m : Machine) (ops : List Operation) : Nat :=
  observe (noteIf p) 0 m ops

section Counting

variable {kind : Event → Bool} {p : Machine → Operation → Bool}
  (single : ∀ m op, op ≠ .runFrame → (m.perform op).log.countP kind = if p m op then 1 else 0)

include single

theorem record_noteIf (m : Machine) (ops : List Operation) (noFrame : ∀ op ∈ ops, op ≠ .runFrame)
    (start : Nat) : record (noteIf p) start m ops = start + (m.logged ops).countP kind := by
  induction ops generalizing m start with
  | nil => rfl
  | cons op ops ih =>
    have one := single m op (noFrame op List.mem_cons_self)
    rw [record, ih _ (fun op mem => noFrame op (List.mem_cons_of_mem _ mem)), logged_cons,
      List.countP_append, one, noteIf]
    split <;> omega

/-- If every single operation logs one message of a kind where `p` holds and none elsewhere, then a run
logs as many of them as `p` holds in it. -/
theorem countP_logged (m : Machine) (ops : List Operation) :
    (m.logged ops).countP kind = m.tally p ops := by
  rw [tally, observe, record_noteIf single m _ (fun op mem => (mem_primitives mem).1),
    logged_primitives, Nat.zero_add]

end Counting

end ChipEight.Machine
