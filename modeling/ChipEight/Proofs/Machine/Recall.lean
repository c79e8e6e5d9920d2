import ChipEight.Proofs.Machine.Mirror
import ChipEight.Proofs.Machine.Timeline
/-!
# Short and long memories

A machine with a lower bound on its history remembers the latest of what another one remembers, and
only a rewind that finds no history left can tell the two apart.
-/
namespace ChipEight.Machine

/-- `n` mirrors `m`, with the same settings but for a bound of `more` on its history. -/
structure RecallsMore (config : Config) (more : Nat) (m n : Machine) : Prop where
  mirrors : Mirrors id (· <+: ·) m n
  short : m.config = config
  long : n.config = { config with historyLimit := more }
  bounded : Bounded m ∧ Bounded n

/-- The same state put in front of two histories stays there as far as the lower bound allows. -/
theorem save_prefix_save (s : State) {less more : Nat} {latest all : List State}
    (few : latest.length ≤ less) (many : all.length ≤ more) (shorter : less ≤ more)
    (front : latest <+: all) : save less s latest <+: save more s all := by
  rw [save_eq_take few, save_eq_take many, List.prefix_take_iff]
  exact ⟨(List.take_prefix _ _).trans ((List.prefix_cons_inj s).mpr front),
    Nat.le_trans (List.length_take_le _ _) shorter⟩

theorem RecallsMore.faithful {config : Config} {more : Nat} {m n : Machine}
    (recalls : RecallsMore config more m n) (shorter : config.historyLimit ≤ more) :
    Faithful id (· <+: ·) (fun _ => True) m n where
  carried {s after op} stack done := by
    rw [recalls.short] at done
    rw [recalls.long]
    exact done
  faulted {s op f} failed fine := by
    rw [recalls.short] at failed
    rw [recalls.long]
    exact failed
  forgotten := List.nil_prefix
  remembered s aligned := by
    have longer : m.config.historyLimit ≤ n.config.historyLimit := by
      rw [recalls.short, recalls.long]
      exact shorter
    exact save_prefix_save s recalls.bounded.1.history recalls.bounded.2.history longer aligned
  undone {s older all} aligned := by
    obtain ⟨rest, rfl⟩ := aligned
    exact ⟨older ++ rest, rfl, List.prefix_append older rest⟩

theorem lockstep_recallsMore {config : Config} {more : Nat} (shorter : config.historyLimit ≤ more) :
    Lockstep (RecallsMore config more)
      (fun op answer => (op, answer) ≠ (.rewind, .flag false)) where
  cadence {m n} recalls := by
    rw [recalls.short, recalls.long]
    exact ⟨rfl, rfl⟩
  single {m n} op recalls noFrame fine := by
    have undone : op = .rewind → m.rewind.result = false → n.history = [] := by
      rintro rfl empty
      exact absurd (congrArg (fun told => (Operation.rewind, Answer.flag told)) empty) fine
    obtain ⟨result, mirrors⟩ :=
      recalls.mirrors.single (recalls.faithful shorter) noFrame (fun _ _ => trivial) undone
    exact ⟨result, mirrors, (performAll_config m [op]).trans recalls.short,
      (performAll_config n [op]).trans recalls.long,
      recalls.bounded.1.performAll [op], recalls.bounded.2.performAll [op]⟩
  stepped op := nofun
  ticked running := ⟨nofun, nofun⟩
  failed fine := nofun

/-- Two new machines with the same random bytes, whose settings differ only in the bound on the history,
give the same answers in every run in which no rewind on the one with the lower bound finds its history
used up. After each operation they then agree in their states and past opcodes, and the history of the
one is the latest part of the history of the other. -/
theorem history_bound_unobservable (config : Config) (random : Random.Stream) (more : Nat)
    (shorter : config.historyLimit ≤ more) (ops : List Operation)
    (undone : (.rewind, .flag false) ∉ ops.zip ((newWith config random).answers ops)) :
    let short := newWith config random
    let long := newWith { config with historyLimit := more } random
    long.answers ops = short.answers ops ∧
    ∀ front, front <+: ops →
      (long.performAll front).state = (short.performAll front).state ∧
      (long.performAll front).past = (short.performAll front).past ∧
      (short.performAll front).history <+: (long.performAll front).history := by
  intro short long
  have start : RecallsMore config more short long :=
    ⟨⟨rfl, List.nil_prefix, rfl⟩, rfl, rfl, bounded_newWith _ random, bounded_newWith _ random⟩
  obtain ⟨answers, later⟩ := (lockstep_recallsMore shorter).answers start
    fun told mem same => undone (same ▸ mem)
  refine ⟨answers, fun front initial => ?_⟩
  have mirrors := (later front initial).mirrors
  exact ⟨mirrors.state, mirrors.past, mirrors.history⟩

/-- A jump to itself steps for ever. -/
private theorem step_self_jump {m : Machine} (start : m.state.pc = 0x200)
    (found : m.peek 0x200 = some 0x1200) :
    m.step.result = .ok 0x1200 ∧
    m.step.machine =
      remember { m with state := { m.state with pc := 0x200, refused := false } } m.state 0x1200 := by
  have ran : m.advance.state.carryOut m.config.strict 0x1200 =
      .ok { m.state with pc := 0x200, refused := false } := rfl
  obtain ⟨reached, done⟩ := step_of_ok (start ▸ found) ran
  exact ⟨done, reached⟩

private theorem answers_self_jump {m : Machine} (bounded : Bounded m) (start : m.state.pc = 0x200)
    (found : m.peek 0x200 = some 0x1200) (remembers : 0 < m.config.historyLimit) :
    m.answers [.step, .step, .rewind] =
      [.opcode (.ok 0x1200), .opcode (.ok 0x1200), .flag true] := by
  obtain ⟨first, reached⟩ := step_self_jump start found
  have again : m.step.machine.peek 0x200 = some 0x1200 := by
    rw [reached]
    exact found
  have second := (step_self_jump (m := m.step.machine) (by rw [reached]; rfl) again).1
  have settings : m.step.machine.config = m.config := performAll_config m [.step]
  have after : Bounded m.step.machine := bounded.performAll [.step]
  have undone : m.step.machine.step.machine.rewind.result = true := by
    rw [rewind_result_iff, step_history after second, settings, List.length_take, List.length_cons]
    exact Nat.lt_min.mpr ⟨remembers, Nat.succ_pos _⟩
  simp only [answers_cons, perform, Outcome.map, first, second, undone]
  rfl

private theorem answers_loaded {m : Machine} (bounded : Bounded m) (start : m.state.pc = 0x200)
    (remembers : 0 < m.config.historyLimit) :
    m.answers [.load ⟨#[0x12, 0x00]⟩, .step, .step, .rewind] =
      [.count 2, .opcode (.ok 0x1200), .opcode (.ok 0x1200), .flag true] := by
  obtain ⟨settings, place, -⟩ := load_keeps m ⟨#[0x12, 0x00]⟩
  rw [answers_cons, answers_self_jump]
  · rfl
  · exact bounded.performAll [.load ⟨#[0x12, 0x00]⟩]
  · exact place.trans start
  · exact (peek_load m _ (by decide) (by decide)).trans (by decide)
  · rw [← settings] at remembers
    exact remembers

/-- Room for one state is enough for one rewind: two steps and a rewind are answered as they are with
room for two hundred. -/
theorem history_bound_unobservable_at_self_jump :
    let config := { Config.standard with historyLimit := 1 }
    let short := newWith config (.ofSeed 0)
    let long := newWith { config with historyLimit := 200 } (.ofSeed 0)
    let ops : List Operation := [.load ⟨#[0x12, 0x00]⟩, .step, .step, .rewind]
    (.rewind, .flag false) ∉ ops.zip (short.answers ops) ∧
    long.answers ops = [.count 2, .opcode (.ok 0x1200), .opcode (.ok 0x1200), .flag true] := by
  intro config short long ops
  have told : short.answers ops = _ := answers_loaded (bounded_newWith config _) rfl Nat.one_pos
  have undone : (.rewind, .flag false) ∉ ops.zip (short.answers ops) := by
    rw [told]
    simp [ops]
  refine ⟨undone, ?_⟩
  rw [(history_bound_unobservable config (.ofSeed 0) 200 (by decide) ops undone).1]
  exact told

end ChipEight.Machine
