import ChipEight.Proofs.Machine.Countdown
/-!
# The timeline

The states that a machine has stepped from and not gone back to make up its `timeline`, which no bound
cuts short. What the machine remembers is the latest part of it (`Remembers`), whatever is done to the
machine, so that a rewind always goes back to the state that the latest step came from.
-/
namespace ChipEight.Machine

/-- A successful step puts the state that it starts from in front, a successful rewind takes the front
away, and a load starts anew. -/
def noteState (past : List State) (m : Machine) : Operation → List State
  | .load _ => []
  | .step =>
    match m.step.result with
    | .ok _ => m.state :: past
    | .error _ => past
  | .rewind => if m.rewind.result then past.tail else past
  | _ => past

/-- The states stepped from since the last load and not gone back to, the latest first. -/
def timeline (m : Machine) (ops : List Operation) : List State := observe noteState [] m ops

/-- The history is the latest part of `past`, and nothing is kept beyond its bound. -/
structure Remembers (past : List State) (m : Machine) : Prop where
  latest : m.history <+: past
  bounded : Bounded m

theorem Remembers.change {past : List State} {m after : Machine} {op : Operation}
    (change : Change m op after) (here : Remembers past m) :
    Remembers (noteState past m op) after := by
  refine ⟨?_, here.bounded.change change⟩
  cases change with
  | load rom memory => exact List.nil_prefix
  | stepped fetched carried result =>
    have noted : noteState past m .step = m.state :: past := by rw [noteState, result]
    rw [noted, remember, save_eq_take here.bounded.history]
    exact (List.take_prefix _ _).trans ((List.prefix_cons_inj m.state).mpr here.latest)
  | unstepped result =>
    have noted : noteState past m .step = past := by rw [noteState, result]
    rw [noted]
    exact here.latest
  | @rewound before older history =>
    have noted : noteState past m .rewind = past.tail := by
      rw [noteState, (rewind_of_cons history).2, if_pos rfl]
    obtain ⟨rest, rfl⟩ := here.latest
    rw [noted, history]
    exact List.prefix_append older rest
  | unwound history =>
    have noted : noteState past m .rewind = past := by
      rw [noteState, (rewind_of_nil history).2, if_neg Bool.false_ne_true]
    rw [noted]
    exact here.latest
  | _ => exact here.latest

theorem remembers_timeline (config : Config) (random : Random.Stream) (ops : List Operation) :
    Remembers (timeline (newWith config random) ops) ((newWith config random).performAll ops) :=
  observe_keeps Remembers.change ⟨List.nil_prefix, bounded_newWith config random⟩ ops

/-- A successful step puts the state that it starts from into the history, which is then cut to its
bound. -/
theorem step_history {m : Machine} {op : Opcode} (bounded : Bounded m)
    (done : m.step.result = .ok op) :
    m.step.machine.history = (m.state :: m.history).take m.config.historyLimit := by
  rcases step_cases m with ⟨code, after, -, -, reached, -⟩ | ⟨f, -, failed⟩
  · rw [reached]
    exact save_eq_take bounded.history m.state
  · rw [failed] at done
    cases done

theorem rewind_result_iff (m : Machine) : m.rewind.result = true ↔ 0 < m.history.length := by
  cases history : m.history with
  | nil => simp [(rewind_of_nil history).2]
  | cons before older => simp [(rewind_of_cons history).2]

/-! ## Undoing a frame -/

theorem take_append_take (later older : List State) (bound : Nat) :
    (later ++ older.take bound).take bound = (later ++ older).take bound := by
  rw [List.take_append, List.take_append, List.take_take,
    Nat.min_eq_left (Nat.sub_le bound later.length)]

/-- Steps that all succeed leave the state that they started from `count` places deep. -/
theorem stepsAfter_history {m : Machine} (bounded : Bounded m) {count taken all : Nat}
    {logged : List Event} (done : (stepsAfter taken logged m (count + 1)).result = .ok all) :
    ∃ later, later.length = count ∧ (stepsAfter taken logged m (count + 1)).machine.history =
      (later ++ m.state :: m.history).take m.config.historyLimit := by
  induction count generalizing m taken logged with
  | zero =>
    cases first : m.step.result with
    | error f =>
      rw [stepsAfter_succ_of_error first] at done
      cases done
    | ok op =>
      rw [stepsAfter_succ_of_ok first]
      exact ⟨[], rfl, step_history bounded first⟩
  | succ count ih =>
    cases first : m.step.result with
    | error f =>
      rw [stepsAfter_succ_of_error first] at done
      cases done
    | ok op =>
      rw [stepsAfter_succ_of_ok first] at done ⊢
      have after : Bounded m.step.machine := bounded.performAll [.step]
      obtain ⟨later, deep, history⟩ := ih after done
      have settings : m.step.machine.config = m.config := performAll_config m [.step]
      refine ⟨later ++ [m.step.machine.state], by simp [deep], ?_⟩
      -- The first step has cut the history already, but the later ones cut it again.
      rw [history, step_history bounded first, settings, List.append_cons, take_append_take]

/-- Steps within the bound that all succeed leave the state that they started from below those of the
steps after the first. -/
theorem steps_history {m : Machine} (bounded : Bounded m) {count all : Nat}
    (within : count + 1 ≤ m.config.historyLimit) (done : (m.steps (count + 1)).result = .ok all) :
    ∃ later older, later.length = count ∧
      (m.steps (count + 1)).machine.history = later ++ m.state :: older := by
  obtain ⟨later, deep, history⟩ := stepsAfter_history bounded done
  refine ⟨later, m.history.take (m.config.historyLimit - (count + 1)), deep, ?_⟩
  have room : m.config.historyLimit - later.length =
      m.config.historyLimit - (count + 1) + 1 := by omega
  rw [steps, history, List.take_append, room, List.take_succ_cons,
    List.take_of_length_le (by omega)]

theorem ticks_history (m : Machine) (count : Nat) : (m.ticks count).1.history = m.history := by
  rw [ticks_machine]
  rfl

/-- A successful frame of one instruction or more, all within the bound, leaves the state that it
started from as deep in the history as it has instructions. -/
theorem runFrame_history {m : Machine} (bounded : Bounded m) {report : FrameReport}
    (least : 1 ≤ m.config.instructionsPerFrame)
    (within : m.config.instructionsPerFrame ≤ m.config.historyLimit)
    (done : m.runFrame.result = .ok report) :
    ∃ later older, later.length + 1 = m.config.instructionsPerFrame ∧
      m.runFrame.machine.history = later ++ m.state :: older := by
  cases stepped : (m.steps m.config.instructionsPerFrame).result with
  | error f =>
    rw [(runFrame_of_error stepped).2] at done
    cases done
  | ok all =>
    rw [runFrame_machine_of_ok stepped, ticks_history]
    obtain ⟨count, counted⟩ := Nat.exists_eq_add_of_le' least
    rw [counted] at stepped within ⊢
    obtain ⟨later, older, deep, history⟩ := steps_history bounded within stepped
    exact ⟨later, older, by rw [deep], history⟩

/-- Rewinds as many as a state lies deep all succeed and end in that state. -/
theorem performAll_rewinds {m : Machine} {later older : List State} {before : State}
    (history : m.history = later ++ before :: older) :
    (∀ k ≤ later.length, (m.performAll (.replicate k .rewind)).rewind.result = true) ∧
    (m.performAll (.replicate (later.length + 1) .rewind)).state = before := by
  induction later generalizing m with
  | nil =>
    obtain ⟨reached, result⟩ := rewind_of_cons history
    constructor
    · intro k bound
      obtain rfl : k = 0 := Nat.le_zero.mp bound
      exact result
    · change m.rewind.machine.state = before
      rw [reached]
  | cons last later ih =>
    obtain ⟨reached, result⟩ := rewind_of_cons history
    have behind : m.rewind.machine.history = later ++ before :: older := by rw [reached]; rfl
    obtain ⟨results, ends⟩ := ih behind
    constructor
    · intro k bound
      cases k with
      | zero => exact result
      | succ k => exact results k (Nat.le_of_succ_le_succ bound)
    · exact ends

/-- Rewinding is an exact undo, after any operations on a new machine: the history is the latest part of
the timeline and never exceeds its bound, each step that succeeds adds one to it up to the bound, and a
rewind succeeds exactly if there is history left, uses up one entry of it and restores the whole state
that the latest step not undone came from. A frame is undone by as many rewinds as it has steps. -/
theorem rewind_exact_undo (config : Config) (random : Random.Stream) (ops : List Operation) :
    let m := (newWith config random).performAll ops
    let past := timeline (newWith config random) ops
    m.history = past.take m.history.length ∧
    m.history.length ≤ config.historyLimit ∧
    (∀ op, m.step.result = .ok op →
      m.step.machine.history.length = min config.historyLimit (m.history.length + 1)) ∧
    (m.rewind.result = true ↔ 0 < m.history.length) ∧
    (m.rewind.result = true →
      m.rewind.machine.history.length + 1 = m.history.length ∧
      past.head? = some m.rewind.machine.state) ∧
    (1 ≤ config.instructionsPerFrame → config.instructionsPerFrame ≤ config.historyLimit →
      ∀ report, m.runFrame.result = .ok report →
        (∀ k < config.instructionsPerFrame,
          (m.runFrame.machine.performAll (.replicate k .rewind)).rewind.result = true) ∧
        (m.runFrame.machine.performAll
          (.replicate config.instructionsPerFrame .rewind)).state = m.state) := by
  intro m past
  have settings : m.config = config := performAll_config (newWith config random) ops
  have here : Remembers past m := remembers_timeline config random ops
  refine ⟨List.prefix_iff_eq_take.mp here.latest, settings ▸ here.bounded.history, ?_,
    rewind_result_iff m, ?_, ?_⟩
  · intro op done
    rw [step_history here.bounded done, settings, List.length_take, List.length_cons]
  · intro undone
    cases history : m.history with
    | nil =>
      rw [(rewind_of_nil history).2] at undone
      cases undone
    | cons before older =>
      obtain ⟨rest, whole⟩ := here.latest
      rw [history] at whole
      rw [(rewind_of_cons history).1, ← whole]
      exact ⟨rfl, rfl⟩
  · intro least within report done
    rw [← settings] at least within ⊢
    obtain ⟨later, older, deep, history⟩ := runFrame_history here.bounded least within done
    obtain ⟨results, ends⟩ := performAll_rewinds history
    rw [← deep]
    exact ⟨fun k bound => results k (Nat.le_of_lt_succ bound), ends⟩

/-- `7001` adds one to `V0`. -/
private theorem step_increment {m : Machine} (found : m.peek m.state.pc = some 0x7001) :
    m.step.result = .ok 0x7001 ∧ m.step.machine.state.v 0 = m.state.v 0 + 1 ∧
    m.step.machine.peek m.step.machine.state.pc = m.peek (m.state.pc + 2) := by
  have ran : m.advance.state.carryOut m.config.strict 0x7001 =
      .ok (({ m.advance.state with refused := false }).setV 0 (m.state.v 0 + 1)) := rfl
  obtain ⟨reached, done⟩ := step_of_ok found ran
  rw [reached]
  exact ⟨done, (State.v_setV _ 0 0 _).trans (if_pos rfl), rfl⟩

private theorem frame_of_increments {m : Machine} (two : m.config.instructionsPerFrame = 2)
    (first : m.peek m.state.pc = some 0x7001) (second : m.peek (m.state.pc + 2) = some 0x7001) :
    (∃ report, m.runFrame.result = .ok report) ∧
    m.runFrame.machine.state.v 0 = m.state.v 0 + 2 := by
  obtain ⟨done, once, next⟩ := step_increment first
  obtain ⟨again, twice, -⟩ := step_increment (next.trans second)
  have stepped : (m.steps m.config.instructionsPerFrame).result = .ok 2 ∧
      (m.steps m.config.instructionsPerFrame).machine = m.step.machine.step.machine := by
    rw [two, steps, stepsAfter_succ_of_ok done, stepsAfter_succ_of_ok again]
    exact ⟨rfl, rfl⟩
  refine ⟨⟨_, runFrame_result_of_ok stepped.1⟩, ?_⟩
  have counted : m.step.machine.step.machine.state.v 0 = m.state.v 0 + 2 := by
    rw [twice, once, UInt8.add_assoc]
    rfl
  rw [runFrame_machine_of_ok stepped.1, ticks_machine, stepped.2]
  exact counted

/-- A frame that counts `V0` up twice is undone by two rewinds. -/
theorem frame_undone_by_two_rewinds :
    let start := newWith { Config.standard with instructionsPerFrame := 2 } (.ofSeed 0)
    let loaded := start.performAll [.load ⟨#[0x70, 0x01, 0x70, 0x01]⟩]
    loaded.runFrame.machine.state.v 0 = loaded.state.v 0 + 2 ∧
    (∀ k < 2, (loaded.runFrame.machine.performAll (.replicate k .rewind)).rewind.result = true) ∧
    (loaded.runFrame.machine.performAll [.rewind, .rewind]).state = loaded.state := by
  intro start loaded
  let rom : Rom := ⟨#[0x70, 0x01, 0x70, 0x01]⟩
  obtain ⟨settings, place, -⟩ := load_keeps start rom
  have pc : loaded.state.pc = 0x200 := place
  have first : loaded.peek 0x200 = some 0x7001 :=
    (peek_load start rom (by decide) (by decide)).trans (by decide)
  have second : loaded.peek 0x202 = some 0x7001 :=
    (peek_load start rom (by decide) (by decide)).trans (by decide)
  obtain ⟨⟨report, done⟩, counted⟩ := frame_of_increments (m := loaded)
    (congrArg Config.instructionsPerFrame settings) (by rw [pc, first])
    (by rw [pc]; exact second)
  obtain ⟨-, -, -, -, -, undo⟩ := rewind_exact_undo
    { Config.standard with instructionsPerFrame := 2 } (.ofSeed 0) [.load rom]
  exact ⟨counted, undo (by decide) (by decide) report done⟩

end ChipEight.Machine
