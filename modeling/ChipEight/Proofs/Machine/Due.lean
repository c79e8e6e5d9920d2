import ChipEight.Proofs.Machine.Failure
import ChipEight.Proofs.Machine.Picture
/-!
# Pictures that are due

A host that asks for a picture gets one exactly if an opcode that paints was executed since it last asked,
on its own, in a step or within a frame, be it one that failed later (`picture_iff_painted`). Only rewinds
are left out: they bring the wish for a picture back as it was.
-/
namespace ChipEight.Machine

/-- The opcodes executed since a picture was last asked for, the latest first. -/
def noteSinceAsked (codes : List Opcode) (m : Machine) : Operation → List Opcode
  | .takeFrame => []
  | op => (m.executed? op).toList ++ codes

def executedSinceAsked (m : Machine) (ops : List Operation) : List Opcode :=
  observe noteSinceAsked [] m ops

/-- A picture is wanted exactly if one of the opcodes paints. -/
def Due (codes : List Opcode) (m : Machine) : Prop :=
  m.state.redraw = codes.any fun code => (Instruction.decode code).paints

theorem any_paints_executed? (m : Machine) (op : Operation) :
    ((m.executed? op).toList.any fun code => (Instruction.decode code).paints) = m.paints op := by
  unfold paints
  cases m.executed? op <;> simp

theorem Due.change {codes : List Opcode} {m after : Machine} {op : Operation}
    (change : Change m op after) (noRewind : op ≠ .rewind) (here : Due codes m) :
    Due (noteSinceAsked codes m op) after := by
  by_cases takes : op = .takeFrame
  · subst takes
    cases change
    rfl
  · have noted : noteSinceAsked codes m op = (m.executed? op).toList ++ codes := by
      cases op <;> first | rfl | contradiction
    have screen := change.screen noRewind takes
    unfold Due at here ⊢
    rw [noted, List.any_append, any_paints_executed?]
    cases painted : m.paints op with
    | true =>
      rw [painted, if_pos rfl] at screen
      rw [screen, Bool.true_or]
    | false =>
      rw [painted, if_neg Bool.false_ne_true] at screen
      rw [screen.2, here, Bool.false_or]

theorem due_executedSinceAsked (config : Config) (random : Random.Stream) {ops : List Operation}
    (noRewind : .rewind ∉ ops) :
    Due ((newWith config random).executedSinceAsked ops) ((newWith config random).performAll ops) := by
  rw [← performAll_primitives]
  refine record_keeps_of_mem (I := Due) (fun codes m op mem here => ?_) rfl
  refine here.change (change_of_perform m (mem_primitives mem).1) ?_
  rintro rfl
  exact rewind_notMem_primitives noRewind mem

/-- After any operations but rewinds on a new machine, a picture is to be had exactly if a `00E0` or a
`DXYN` was executed since one was last asked for, and it is what the screen shows. -/
theorem picture_iff_painted (config : Config) (random : Random.Stream) (ops : List Operation)
    (noRewind : .rewind ∉ ops) :
    let start := newWith config random
    let m := start.performAll ops
    m.takeFrame.result =
      if ∃ code ∈ start.executedSinceAsked ops, code = 0x00E0 ∨ code.family = 0xD then
        some m.state.screen
      else none := by
  intro start m
  have due : Due (start.executedSinceAsked ops) m := due_executedSinceAsked config random noRewind
  have wish : m.state.redraw = true ↔
      ∃ code ∈ start.executedSinceAsked ops, code = 0x00E0 ∨ code.family = 0xD := by
    rw [due, List.any_eq_true]
    simp only [Instruction.paints_decode_iff]
  unfold takeFrame
  simp only [wish]
  split <;> rfl

/-- A frame that clears the screen and then fails for want of a return address. -/
private theorem frame_clears_and_fails {m : Machine} (start : m.state.pc = 0x200)
    (first : m.peek 0x200 = some 0x00E0) (second : m.peek 0x202 = some 0x00EE)
    (strict : m.config.strict = true) (bare : m.state.stack.frames = [])
    (two : m.config.instructionsPerFrame = 2) :
    m.runFrame.result = .error (.stackUnderflow 0x202) ∧
    m.runFrame.machine.state.screen = .blank ∧ m.executedSinceAsked [.runFrame] = [0x00E0] := by
  have cleared : m.advance.state.carryOut m.config.strict 0x00E0 = .ok
      { m.advance.state with screen := .blank, redraw := true, refused := false } := rfl
  have pc : m.advance.state.pc = 0x202 := by
    change m.state.pc + 2 = 0x202
    rw [start]
    rfl
  obtain ⟨done, state, failed⟩ :=
    return_fails_behind_step (start ▸ first) cleared pc second strict bare
  have stepped : (m.steps m.config.instructionsPerFrame).machine = m.step.machine ∧
      (m.steps m.config.instructionsPerFrame).result = .error (.stackUnderflow 0x202) := by
    rw [two, steps, stepsAfter_succ_of_ok done, stepsAfter_succ_of_error failed]
    exact ⟨step_machine_of_error failed, rfl⟩
  obtain ⟨ended, result⟩ := runFrame_of_error stepped.2
  have attempted : m.primitives [.runFrame] = [.step, .step] := by
    change m.parts .runFrame ++ [] = _
    rw [List.append_nil, parts, stepped.2, two, attempts_succ_of_ok done, attempts, failed]
    rfl
  refine ⟨result, ?_, ?_⟩
  · rw [ended, stepped.1, state]
  · rw [executedSinceAsked, observe, attempted]
    change (m.step.machine.executed? .step).toList ++ ((m.executed? .step).toList ++ []) = _
    simp [executed?, done, failed, Except.toOption]

private theorem loaded_frame_fails {m : Machine} (start : m.state.pc = 0x200)
    (strict : m.config.strict = true) (bare : m.state.stack.frames = [])
    (two : m.config.instructionsPerFrame = 2) :
    let ops : List Operation := [.load ⟨#[0x00, 0xE0, 0x00, 0xEE]⟩, .runFrame]
    m.answers ops = [.count 4, .frame (.error (.stackUnderflow 0x202))] ∧
    (m.performAll ops).state.screen = .blank ∧ m.executedSinceAsked ops = [0x00E0] := by
  intro ops
  let loaded := (m.load ⟨#[0x00, 0xE0, 0x00, 0xEE]⟩).machine
  have first : loaded.peek 0x200 = some 0x00E0 :=
    (peek_load m _ (by decide) (by decide)).trans (by decide)
  have second : loaded.peek 0x202 = some 0x00EE :=
    (peek_load m _ (by decide) (by decide)).trans (by decide)
  obtain ⟨settings, place, stack⟩ := load_keeps m ⟨#[0x00, 0xE0, 0x00, 0xEE]⟩
  obtain ⟨failed, blank, executed⟩ := frame_clears_and_fails (m := loaded) (place.trans start)
    first second (by rw [settings, strict]) (by rw [stack, bare]) (by rw [settings, two])
  have told : m.answers ops = [.count 4, .frame loaded.runFrame.result] := rfl
  have noted := observe_append noteSinceAsked [] m [.load ⟨#[0x00, 0xE0, 0x00, 0xEE]⟩] [.runFrame]
  rw [told, failed]
  exact ⟨rfl, blank, noted.trans executed⟩

/-- Also a frame that fails brings a picture if it has painted before it failed. -/
theorem picture_of_failed_frame :
    let config := { Config.standard with strict := true, instructionsPerFrame := 2 }
    let start := newWith config (.ofSeed 0)
    let ops : List Operation := [.load ⟨#[0x00, 0xE0, 0x00, 0xEE]⟩, .runFrame]
    .rewind ∉ ops ∧
    start.answers ops = [.count 4, .frame (.error (.stackUnderflow 0x202))] ∧
    (start.performAll ops).takeFrame.result = some .blank := by
  intro config start ops
  have noRewind : .rewind ∉ ops := by simp [ops]
  obtain ⟨failed, blank, executed⟩ := loaded_frame_fails (m := start) rfl rfl rfl rfl
  have clears : ∃ code ∈ start.executedSinceAsked ops, code = 0x00E0 ∨ code.family = 0xD := by
    rw [executed]
    exact ⟨0x00E0, List.mem_singleton.mpr rfl, .inl rfl⟩
  refine ⟨noRewind, failed, ?_⟩
  rw [← blank]
  exact (picture_iff_painted config (.ofSeed 0) ops noRewind).trans (if_pos clears)

end ChipEight.Machine
