import ChipEight.Proofs.Host.HeldKeys
import ChipEight.Proofs.Machine.Countdown
/-!
# Beeps

A run logs when the sound starts and when it stops, and both depend only on what the sound timer is at
when the steps of each frame are done (`soundEvents_run`). A start is reported unless the sound was on at
the end of the frame before; a stop is reported whenever the last tick of the timer falls into the frame,
be its start reported or not, and not at all if the program sets the timer to zero. So the reports pair up
for programs that keep to a condition (`beeps_alternate_iff`), and others get them out of turn
(`beeps_out_of_turn`).
-/
namespace ChipEight.Host

/-- The event tells that the sound starts or stops. -/
def Event.ofSound : Event → Bool
  | beep _ | beepStopped _ => true
  | _ => false

/-- The reports of a log take turns, a beep first unless one is on already. -/
def alternate (on : Bool) : List Event → Bool
  | [] => true
  | .beep _ :: later => !on && alternate true later
  | .beepStopped _ :: later => on && alternate false later
  | _ :: later => alternate on later

theorem alternate_filter (on : Bool) (log : List Event) :
    alternate on (log.filter Event.ofSound) = alternate on log := by
  induction log generalizing on with
  | nil => rfl
  | cons e later ih => cases e <;> simp [List.filter_cons, alternate, Event.ofSound, ih]

/-- What a frame reports of the sound, from what its steps leave the timer at. -/
def reported (frame : Nat) (beeping : Bool) (reading : Nat) : List Event :=
  (if 1 < reading ∧ beeping = false then [.beep frame] else []) ++
    (if reading = 1 then [.beepStopped frame] else [])

/-- What the frames from `frame` on report of the sound. -/
def announced (frame : Nat) (beeping : Bool) : List Nat → List Event
  | [] => []
  | reading :: later =>
    reported frame beeping reading ++ announced (frame + 1) (decide (1 < reading)) later

namespace Session

/-- What was logged of the sound, the earliest message first. -/
def soundEvents (s : Session) : List Event := s.log.reverse.filter Event.ofSound

/-- What the steps of each frame leave the sound timer at, up to a fault. -/
def readings (presses : List KeyPress) (s : Session) (frame : Nat) : Nat → List Nat
  | 0 => []
  | count + 1 =>
    let ready := s.handleKeys presses frame
    match ready.playFrame frame with
    | (_, some _) => []
    | (next, none) => ready.machine.soundingAfterSteps :: readings presses next (frame + 1) count

theorem handleKeys_machine (s : Session) (presses : List KeyPress) (frame : Nat) :
    (s.handleKeys presses frame).machine =
      s.machine.performAll (s.held.map .release ++ (keysFor presses frame).map .press) := by
  rw [Machine.performAll_append, Machine.performAll, Machine.performAll, List.foldl_map,
    List.foldl_map]
  rfl

theorem handleKeys_config (s : Session) (presses : List KeyPress) (frame : Nat) :
    (s.handleKeys presses frame).machine.config = s.machine.config := by
  rw [handleKeys_machine, Machine.performAll_config]

theorem soundEvents_handleKeys (s : Session) (presses : List KeyPress) (frame : Nat) :
    (s.handleKeys presses frame).soundEvents = s.soundEvents := by
  have silent : ((keysFor presses frame).map (Event.pressing frame)).filter Event.ofSound = [] := by
    simp [List.filter_eq_nil_iff, Event.ofSound]
  simp only [soundEvents, handleKeys, List.reverse_append, List.reverse_reverse, List.filter_append,
    silent, List.append_nil]

/-- A machine's own messages are not about the sound. -/
theorem filter_machine (log : List Machine.Event) :
    (log.map Event.machine).filter Event.ofSound = [] := by
  simp [List.filter_eq_nil_iff, Event.ofSound]

theorem playFrame_of_error {s : Session} {fault : Fault}
    (failed : s.machine.runFrame.result = .error fault) (frame : Nat) :
    (s.playFrame frame).2 = some fault ∧ (s.playFrame frame).1.soundEvents = s.soundEvents := by
  simp only [playFrame, failed, soundEvents, List.reverse_append, List.reverse_reverse,
    List.filter_append, filter_machine, List.append_nil, and_self]

theorem filter_frameEvents {frame reading : Nat} {beeping updated waiting : Bool}
    {report : Machine.FrameReport} (active : report.soundActive = decide (1 < reading))
    (stopped : report.beepStopped = decide (reading = 1)) :
    (frameEvents frame beeping report updated waiting).filter Event.ofSound =
      reported frame beeping reading := by
  have start : (1 < reading ∧ beeping = false) ↔ (report.soundActive && !beeping) = true := by
    rw [active, Bool.and_eq_true, decide_eq_true_eq, Bool.not_eq_true']
  have stop : reading = 1 ↔ report.beepStopped = true := by rw [stopped, decide_eq_true_eq]
  simp only [frameEvents, reported, start, stop, List.filter_append, apply_ite (List.filter _),
    List.filter_cons, List.filter_nil, Event.ofSound, if_true, Bool.false_eq_true, if_false,
    ite_self, List.append_nil]

/-- A frame that is played to its end. -/
theorem playFrame_of_ok {s : Session} {report : Machine.FrameReport}
    (single : s.machine.config.timerTicksPerFrame = 1)
    (done : s.machine.runFrame.result = .ok report) (frame : Nat) :
    let next := (s.playFrame frame).1
    (s.playFrame frame).2 = none ∧ next.machine.config = s.machine.config ∧
    next.beeping = decide (1 < s.machine.soundingAfterSteps) ∧
    next.soundEvents = s.soundEvents ++
      reported frame s.beeping s.machine.soundingAfterSteps := by
  intro next
  obtain ⟨active, stopped⟩ := Machine.runFrame_report done
  have last : decide (0 < s.machine.soundingAfterSteps ∧ s.machine.soundingAfterSteps ≤ 1) =
      decide (s.machine.soundingAfterSteps = 1) := decide_eq_decide.mpr (by omega)
  rw [single] at active
  rw [single, last] at stopped
  have settings : s.machine.runFrame.machine.config = s.machine.config :=
    Machine.performAll_config s.machine [.runFrame]
  simp only [next, playFrame, done, true_and, Machine.takeFrame_machine]
  refine ⟨settings, active, ?_⟩
  simp only [soundEvents, List.reverse_append, List.reverse_reverse, List.filter_append,
    filter_machine, filter_frameEvents active stopped, List.append_nil]

/-- The frames of a session report of the sound what the readings of its timer announce. -/
theorem soundEvents_playFrames {s : Session} (single : s.machine.config.timerTicksPerFrame = 1)
    (presses : List KeyPress) (frame count : Nat) :
    (s.playFrames presses frame count).1.soundEvents =
      s.soundEvents ++ announced frame s.beeping (readings presses s frame count) := by
  -- Of the frames before, a frame's reports depend on `beeping` alone, which is their last reading's.
  induction count generalizing s frame with
  | zero => exact (List.append_nil _).symm
  | succ count ih =>
    let ready := s.handleKeys presses frame
    have settled : ready.machine.config.timerTicksPerFrame = 1 := by
      rw [handleKeys_config, single]
    have before : ready.soundEvents = s.soundEvents := soundEvents_handleKeys s presses frame
    cases done : ready.machine.runFrame.result with
    | error fault =>
      obtain ⟨stopped, events⟩ := playFrame_of_error done frame
      have ends : ready.playFrame frame = ((ready.playFrame frame).1, some fault) := by
        rw [← stopped]
      rw [playFrames, readings, ends]
      exact (events.trans before).trans (List.append_nil _).symm
    | ok report =>
      obtain ⟨goesOn, settings, beeping, events⟩ := playFrame_of_ok settled done frame
      have onward : ready.playFrame frame = ((ready.playFrame frame).1, none) := by
        rw [← goesOn]
      rw [playFrames, readings, onward]
      have later := ih (settings ▸ settled) (frame + 1)
      rw [later, events, before, beeping, List.append_assoc]
      rfl

end Session

/-- What the steps of each frame of a run leave the sound timer at. -/
def soundReadings (o : Options) (file : RomFile) (chance : Random.Stream) : List Nat :=
  match file with
  | .unopened _ | .unreadable _ => []
  | .contents rom =>
    if o.disassemble then []
    else Session.readings o.presses (Session.opening o rom chance) 0 o.frames

theorem Session.soundEvents_opening (o : Options) (rom : Rom) (chance : Random.Stream) :
    (Session.opening o rom chance).soundEvents = [] := by
  simp only [soundEvents, opening, List.reverse_cons, List.reverse_reverse, List.filter_append,
    filter_machine, List.filter_cons, List.filter_nil, Event.ofSound, Bool.false_eq_true, if_false,
    List.append_nil]

theorem Session.soundEvents_closing (played : Session × Option (Nat × Fault)) :
    (Session.closing played).log.filter Event.ofSound = played.1.soundEvents := by
  obtain ⟨s, _ | ⟨frame, fault⟩⟩ := played
  · rfl
  · rfl

theorem soundEvents_run (o : Options) (file : RomFile) (chance : Random.Stream) :
    (run o file chance).log.filter Event.ofSound =
      announced 0 false (soundReadings o file chance) := by
  cases file with
  | unopened e => rfl
  | unreadable e => rfl
  | contents rom =>
    have silent := Session.soundEvents_opening o rom chance
    have single : (Session.opening o rom chance).machine.config.timerTicksPerFrame = 1 :=
      congrArg Config.timerTicksPerFrame (Machine.load_keeps (Machine.new o.config chance) rom).1
    have played := Session.soundEvents_playFrames single o.presses 0 o.frames
    rw [silent, List.nil_append] at played
    simp only [run, runRom, soundReadings]
    split
    next listing => exact silent
    next => exact (Session.soundEvents_closing _).trans played

/-! ## Readings and turns -/

/-- Whether the latest reading above zero is one that a beep is reported for. -/
def beepOn (readings : List Nat) : Bool := ((readings.filter (· ≠ 0)).getLast?).any (1 < ·)

/-- Whether the latest reading outlasts its frame. -/
def stillOn (readings : List Nat) : Bool := readings.getLast?.any (1 < ·)

theorem stillOn_append (before : List Nat) (reading : Nat) :
    stillOn (before ++ [reading]) = decide (1 < reading) := by
  rw [stillOn, List.getLast?_concat]
  rfl

theorem beepOn_append_of_pos (before : List Nat) {reading : Nat} (running : 0 < reading) :
    beepOn (before ++ [reading]) = decide (1 < reading) := by
  have kept : [reading].filter (· ≠ 0) = [reading] := by simp [Nat.ne_of_gt running]
  rw [beepOn, List.filter_append, kept, List.getLast?_concat]
  rfl

theorem beepOn_append_zero (before : List Nat) : beepOn (before ++ [0]) = beepOn before := by
  have dropped : [0].filter (· ≠ 0) = [] := rfl
  rw [beepOn, List.filter_append, dropped, List.append_nil, beepOn]

/-- A sound that goes on was reported. -/
theorem beepOn_of_stillOn {before : List Nat} (still : stillOn before = true) :
    beepOn before = true := by
  rcases List.eq_nil_or_concat before with rfl | ⟨front, reading, rfl⟩
  · cases still
  · rw [List.concat_eq_append, stillOn_append, decide_eq_true_eq] at still
    rw [List.concat_eq_append, beepOn_append_of_pos front (by omega), decide_eq_true_eq]
    exact still

/-- A frame keeps to its turn: it ends only a beep that is on, and it starts or goes on with one only if
none is on or the frame before went on with it. -/
def InTurn (front : List Nat) (reading : Nat) : Prop :=
  (reading = 1 → beepOn front = true) ∧
  (1 < reading → beepOn front = true → stillOn front = true)

theorem alternate_reported (frame reading : Nat) (before : List Nat) (later : List Event) :
    alternate (beepOn before) (reported frame (stillOn before) reading ++ later) = true ↔
      InTurn before reading ∧ alternate (beepOn (before ++ [reading])) later = true := by
  unfold InTurn reported
  rcases Nat.lt_trichotomy reading 1 with zero | one | above
  · obtain rfl : reading = 0 := by omega
    rw [beepOn_append_zero]
    simp
  · subst one
    rw [beepOn_append_of_pos before Nat.one_pos]
    simp [alternate]
  · rw [beepOn_append_of_pos before (by omega)]
    have different : reading ≠ 1 := by omega
    cases still : stillOn before with
    | true => simp [above, different, beepOn_of_stillOn still]
    | false => simp [above, different, alternate]

/-- Reports take turns if each frame's do, given the readings of the frames before. -/
theorem alternate_announced (frame : Nat) (before readings : List Nat) :
    alternate (beepOn before) (announced frame (stillOn before) readings) = true ↔
      ∀ front reading, front ++ [reading] <+: readings → InTurn (before ++ front) reading := by
  -- What is on and what goes on are both read off the frames passed, so these move along in `before`.
  induction readings generalizing before frame with
  | nil => simp [announced, alternate]
  | cons first later ih =>
    rw [announced, alternate_reported, ← stillOn_append before, ih]
    constructor
    · rintro ⟨now, rest⟩ front reading inside
      cases front with
      | nil =>
        obtain ⟨rfl, -⟩ := List.cons_prefix_cons.mp inside
        rwa [List.append_nil]
      | cons head front =>
        obtain ⟨rfl, behind⟩ := List.cons_prefix_cons.mp inside
        rw [List.append_cons]
        exact rest front reading behind
    · intro all
      constructor
      · rw [← List.append_nil before]
        exact all [] first (List.cons_prefix_cons.mpr ⟨rfl, List.nil_prefix⟩)
      · intro front reading inside
        rw [← List.append_cons]
        exact all (first :: front) reading (List.cons_prefix_cons.mpr ⟨rfl, inside⟩)

/-- The reports of a run take turns, a beep first, exactly if each of its frames keeps to its turn: if the
steps of a frame leave the sound timer at 1, the latest frame before that did not leave it at zero left it
above 1; and if they leave it above 1 behind such a frame, that frame was the one right before. -/
theorem beeps_alternate_iff (o : Options) (file : RomFile) (chance : Random.Stream) :
    alternate false (run o file chance).log = true ↔
      ∀ front reading, front ++ [reading] <+: soundReadings o file chance →
        InTurn front reading := by
  rw [← alternate_filter, soundEvents_run]
  exact alternate_announced 0 [] (soundReadings o file chance)

/-- From an address on, a program sets the sound timer to one byte in every two instructions. -/
private def Rings (memory : Memory) (a : UInt16) : List UInt8 → Prop
  | [] => True
  | b :: later =>
    (∃ op, memory.word? a = some op ∧ Instruction.decode op = .loadByte 0 b) ∧
    memory.word? (a + 2) = some 0xF018 ∧ Rings memory (a + 2 + 2) later

private theorem frame_sets_sound {m : Machine} {b : UInt8} {later : List UInt8}
    (program : Rings m.state.memory m.state.pc (b :: later))
    (two : m.config.instructionsPerFrame = 2) (single : m.config.timerTicksPerFrame = 1) :
    m.soundingAfterSteps = b.toNat ∧ (∃ report, m.runFrame.result = .ok report) ∧
    Rings m.runFrame.machine.state.memory m.runFrame.machine.state.pc later := by
  obtain ⟨⟨op, first, loads⟩, second, rest⟩ := program
  have loaded : m.advance.state.carryOut m.config.strict op = .ok
      { m.advance.state.setV 0 b with refused := false } := by
    apply State.carryOut_of_run
    rw [loads]
    rfl
  obtain ⟨reached, done⟩ := Machine.step_of_ok first loaded
  let next := m.step.machine
  have found : next.peek next.state.pc = some 0xF018 := by
    simp only [next, reached]
    exact second
  have v0 : next.state.v 0 = b := by
    simp only [next, reached]
    exact (State.v_setV m.advance.state 0 0 b).trans (if_pos rfl)
  have sets : next.advance.state.carryOut next.config.strict 0xF018 = .ok
      { next.advance.state with sound := ⟨b⟩, refused := false } := by
    rw [← v0]
    rfl
  obtain ⟨reached', done'⟩ := Machine.step_of_ok found sets
  have stepped : m.steps m.config.instructionsPerFrame =
      ⟨next.step.machine, .ok 2, (m.steps m.config.instructionsPerFrame).log⟩ := by
    rw [two, Machine.steps, Machine.stepsAfter_succ_of_ok done,
      Machine.stepsAfter_succ_of_ok done']
    rfl
  have result := congrArg Machine.Outcome.result stepped
  have ended := congrArg Machine.Outcome.machine stepped
  have ticked := Machine.runFrame_machine_of_ok result
  refine ⟨?_, ⟨_, Machine.runFrame_result_of_ok result⟩, ?_⟩
  · rw [Machine.soundingAfterSteps, ended, reached']
    rfl
  · rw [ticked, single, ended, reached']
    simp only [next, reached]
    exact rest

private theorem readings_of_rings {s : Session} {bytes : List UInt8}
    (program : Rings s.machine.state.memory s.machine.state.pc bytes) (held : s.held = [])
    (two : s.machine.config.instructionsPerFrame = 2)
    (single : s.machine.config.timerTicksPerFrame = 1) (frame : Nat) :
    Session.readings [] s frame bytes.length = bytes.map UInt8.toNat := by
  induction bytes generalizing s frame with
  | nil => rfl
  | cons b later ih =>
    let ready := s.handleKeys [] frame
    have same : ready.machine = s.machine := by
      rw [Session.handleKeys_machine, held]
      rfl
    obtain ⟨sound, ⟨report, done⟩, behind⟩ := frame_sets_sound program two single
    rw [← same] at sound done behind two single
    obtain ⟨goesOn, settings, -, -⟩ := Session.playFrame_of_ok single done frame
    have onward : ready.playFrame frame = ((ready.playFrame frame).1, none) := by
      rw [← goesOn]
    rw [List.length_cons, Session.readings, onward, List.map_cons, ← sound]
    refine congrArg _ (ih ?_ ?_ ?_ ?_ (frame + 1))
    · simp only [Session.playFrame, done, Machine.takeFrame_machine]
      exact behind
    · simp only [Session.playFrame, done]
      rfl
    · rw [settings, two]
    · rw [settings, single]

private theorem rings_load (m : Machine) :
    Rings (m.load ⟨#[0x60, 0x01, 0xF0, 0x18, 0x60, 0x05, 0xF0, 0x18,
      0x60, 0x00, 0xF0, 0x18, 0x60, 0x05, 0xF0, 0x18]⟩).machine.state.memory 0x200 [1, 5, 0, 5] := by
  refine ⟨⟨0x6001, ?_, rfl⟩, ?_, ⟨0x6005, ?_, rfl⟩, ?_, ⟨0x6000, ?_, rfl⟩, ?_,
    ⟨0x6005, ?_, rfl⟩, ?_, trivial⟩
  all_goals exact (m.peek_load _ (by decide) (by decide)).trans (by decide)

private theorem soundReadings_of_rings {o : Options} {rom : Rom} {chance : Random.Stream}
    {bytes : List UInt8}
    (program : Rings ((Machine.new o.config chance).load rom).machine.state.memory 0x200 bytes)
    (unpressed : o.presses = []) (running : o.disassemble = false)
    (two : o.instructionsPerFrame = 2) (frames : o.frames = bytes.length) :
    soundReadings o (.contents rom) chance = bytes.map UInt8.toNat := by
  let blank := Machine.new o.config chance
  obtain ⟨settings, place, -⟩ := Machine.load_keeps blank rom
  have pc : blank.state.pc = 0x200 := rfl
  have same : (Session.opening o rom chance).machine = (blank.load rom).machine := rfl
  rw [soundReadings, running, unpressed, frames, if_neg Bool.false_ne_true]
  apply readings_of_rings
  · rw [same, place, pc]
    exact program
  · rfl
  · rw [same, settings]
    exact two
  · rw [same, settings]
    rfl

/-- A timer set to 1 runs out unheard and its stop is reported; a timer set to zero stops a beep without
a word, and another beep follows. -/
theorem beeps_out_of_turn :
    let rom : Rom := ⟨#[0x60, 0x01, 0xF0, 0x18, 0x60, 0x05, 0xF0, 0x18,
      0x60, 0x00, 0xF0, 0x18, 0x60, 0x05, 0xF0, 0x18]⟩
    let o := { Options.standard "rom.ch8" with
      frames := 4, instructionsPerFrame := 2, seed := some 0, verbosity := 1 }
    (run o (.contents rom)).log.filter Event.ofSound = [.beepStopped 0, .beep 1, .beep 3] ∧
    alternate false (run o (.contents rom)).log = false := by
  intro rom o
  have readings : soundReadings o (.contents rom) (.ofSeed 0) = [1, 5, 0, 5] :=
    soundReadings_of_rings (rings_load _) rfl rfl rfl rfl
  rw [← alternate_filter, soundEvents_run, readings]
  exact ⟨rfl, rfl⟩

end ChipEight.Host
