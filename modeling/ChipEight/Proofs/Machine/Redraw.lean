import ChipEight.Proofs.Machine.Run
/-!
# Redraws

A host that redraws on `takeFrame` sees every change of the screen that an instruction makes. What it
can miss is a rewind: the state that comes back brings its own wish for a redraw, raised or not, along
with its screen. `missed_change_iff` says exactly when a change is missed.
-/
namespace ChipEight.Machine

/-- Whether an operation executes an instruction that paints. -/
def paints (m : Machine) (op : Operation) : Bool :=
  (m.executed? op).any fun code => (Instruction.decode code).paints

/-- Painting asks for a redraw, and but for rewinds and taken pictures nothing else touches the screen
or that wish. -/
theorem Change.screen {m after : Machine} {op : Operation} (change : Change m op after)
    (noRewind : op ≠ .rewind) (noTake : op ≠ .takeFrame) :
    if m.paints op then after.state.redraw = true
    else after.state.screen = m.state.screen ∧ after.state.redraw = m.state.redraw := by
  cases change with
  | @executed code after carried result =>
    have paints : m.paints (.execute code) = (Instruction.decode code).paints := by
      simp [Machine.paints, executed?, result, Except.toOption]
    rw [paints]
    exact State.carryOut_screen carried
  | @stepped code after fetched carried result =>
    have paints : m.paints .step = (Instruction.decode code).paints := by
      simp [Machine.paints, executed?, result, Except.toOption]
    have painted := State.carryOut_screen carried
    rw [paints]
    exact painted
  | unexecuted result =>
    simp [Machine.paints, executed?, result, Except.toOption]
  | unstepped result =>
    simp [Machine.paints, executed?, result, Except.toOption]
  | rewound _ | unwound _ => exact absurd rfl noRewind
  | takeFrame => exact absurd rfl noTake
  | _ => exact ⟨rfl, rfl⟩

/-- What a watching host knows. -/
structure Watch where
  /-- The picture last taken, blank before the first. -/
  shown : Screen
  /-- The state that the latest rewind went back to, if there has been no painting and no picture taken
  since. -/
  restored : Option State

/-- Brings a watch up to date with an operation. -/
def noteRedraw (w : Watch) (m : Machine) : Operation → Watch
  | .takeFrame =>
    match m.takeFrame.result with
    | some picture => ⟨picture, none⟩
    | none => w
  | .rewind =>
    match m.history with
    | before :: _ => { w with restored := some before }
    | [] => w
  | op => if m.paints op then { w with restored := none } else w

/-- The watch on a run that starts with a blank screen. -/
def watch (m : Machine) (ops : List Operation) : Watch := observe noteRedraw ⟨.blank, none⟩ m ops

/-- Between rewinds the screen is the picture shown unless a redraw is wanted; after one, screen and
wish are those of the state restored. -/
def Watches (w : Watch) (m : Machine) : Prop :=
  match w.restored with
  | some before => m.state.screen = before.screen ∧ m.state.redraw = before.redraw
  | none => m.state.redraw = false → m.state.screen = w.shown

theorem takeFrame_result_eq_none_iff (m : Machine) :
    m.takeFrame.result = none ↔ m.state.redraw = false := by
  cases wish : m.state.redraw <;> simp [takeFrame, wish]

theorem Watches.change {w : Watch} {m after : Machine} {op : Operation}
    (change : Change m op after) (here : Watches w m) : Watches (noteRedraw w m op) after := by
  by_cases rewinds : op = .rewind
  · subst rewinds
    cases change with
    | rewound history =>
      simp only [Watches, noteRedraw, history, and_self]
    | unwound history =>
      simp only [noteRedraw, history]
      exact here
  by_cases takes : op = .takeFrame
  · subst takes
    cases change
    cases wish : m.state.redraw with
    | true =>
      simp only [Watches, noteRedraw, takeFrame, wish, if_true, implies_true]
    | false =>
      -- A picture that nobody wants changes neither the watch nor the machine.
      have quiet := (takeFrame_result_eq_none_iff m).mpr wish
      have same : { m.state with redraw := false } = m.state := by rw [← wish]
      simp only [noteRedraw, quiet, same]
      exact here
  have noted : noteRedraw w m op = if m.paints op then { w with restored := none } else w := by
    cases op <;> first | rfl | contradiction
  -- What is left either paints, which is settled by the wish that it raises, or touches nothing.
  have screen := change.screen rewinds takes
  rw [noted]
  cases painted : m.paints op with
  | true =>
    rw [painted, if_pos rfl] at screen
    intro quiet
    rw [screen] at quiet
    cases quiet
  | false =>
    rw [painted, if_neg Bool.false_ne_true] at screen
    rw [if_neg Bool.false_ne_true]
    unfold Watches at here ⊢
    rw [screen.1, screen.2]
    exact here

theorem watches_watch (config : Config) (random : Random.Stream) (ops : List Operation) :
    Watches (watch (newWith config random) ops) ((newWith config random).performAll ops) :=
  observe_keeps Watches.change (fun _ => rfl) ops

/-- Only rewinds restore states. -/
theorem restored_eq_none_of_noRewind (m : Machine) (ops : List Operation)
    (noRewind : .rewind ∉ ops) : (watch m ops).restored = none := by
  have keep : ∀ (w : Watch) (reached : Machine), ∀ op ∈ m.primitives ops,
      w.restored = none → (noteRedraw w reached op).restored = none := by
    intro w reached op mem unrestored
    have rewinds : op ≠ .rewind := by
      rintro rfl
      exact rewind_notMem_primitives noRewind mem
    unfold noteRedraw
    split
    · split
      · rfl
      · exact unrestored
    · exact absurd rfl rewinds
    · split
      · rfl
      · exact unrestored
  exact record_keeps_of_mem (I := fun (w : Watch) (_ : Machine) => w.restored = none) keep rfl

/-- After any operations on a new machine, no picture is to be had although the screen has changed since
the last one exactly if the latest rewind, with no painting and no picture taken since, went back to a
state that wants no redraw and has another screen. Without rewinds no change is missed. -/
theorem missed_change_iff (config : Config) (random : Random.Stream) (ops : List Operation) :
    let m := (newWith config random).performAll ops
    let w := watch (newWith config random) ops
    ((m.takeFrame.result = none ∧ m.state.screen ≠ w.shown) ↔
      ∃ before, w.restored = some before ∧ before.redraw = false ∧ before.screen ≠ w.shown) ∧
    (.rewind ∉ ops → m.takeFrame.result = none → m.state.screen = w.shown) := by
  intro m w
  have here : Watches w m := watches_watch config random ops
  rw [takeFrame_result_eq_none_iff]
  unfold Watches at here
  constructor
  · cases restored : w.restored with
    | some before =>
      rw [restored] at here
      simp [here.1, here.2]
    | none =>
      rw [restored] at here
      simpa using here
  · intro noRewind quiet
    have restored : w.restored = none := restored_eq_none_of_noRewind _ ops noRewind
    rw [restored] at here
    exact here quiet

/-! ## A change missed -/

/-- When a wanted picture is taken and then a rewind happens, that picture stays shown, whatever the
state that comes back has on its screen. -/
theorem shown_after_rewind {m : Machine} {ops : List Operation} {before : State}
    {older : List State} (wish : (m.performAll ops).state.redraw = true)
    (history : (m.performAll ops).history = before :: older) :
    (m.performAll (ops ++ [.takeFrame, .rewind])).state = before ∧
    (watch m (ops ++ [.takeFrame, .rewind])).shown = (m.performAll ops).state.screen := by
  rw [performAll_append, watch, observe_append, ← watch]
  generalize m.performAll ops = reached at wish history ⊢
  generalize m.watch ops = w
  have taken : reached.takeFrame.machine.history = before :: older := by
    rw [takeFrame_machine, history]
  have picture : reached.takeFrame.result = some reached.state.screen := by
    simp [takeFrame, wish]
  constructor
  · change reached.takeFrame.machine.rewind.machine.state = before
    rw [(rewind_of_cons taken).1]
  · change (noteRedraw (noteRedraw w reached .takeFrame) reached.takeFrame.machine .rewind).shown = _
    simp only [noteRedraw, picture, taken]

private theorem first_glyph_row : Memory.initial.read 0x50 = 0xF0 := by
  simp only [Memory.read, Memory.initial, Fin.getElem_fin, Vector.getElem_ofFn]
  decide

/-- The top row of the first glyph lights the corner of a blank screen. -/
private theorem corner_drawn :
    Screen.blank.flip (Screen.stamp 0 0 [Memory.initial.read 0x50]) ≠ .blank := by
  intro same
  have corner := congrArg (Screen.pixel? · 0 0) same
  have blank : Screen.blank.pixel? 0 0 = some false :=
    Screen.pixel?_blank (by decide) (by decide)
  have lit : (Screen.stamp 0 0 [Memory.initial.read 0x50]).pixel? 0 0 = some true := by
    rw [Screen.pixel?_stamp 0 0 _ (by decide) (by decide), first_glyph_row]
    decide
  simp only [Screen.pixel?_flip, blank, lit] at corner
  cases corner

/-- Without a program a machine steps over zeros. -/
private theorem new_step :
    (new .standard).step.machine =
      Machine.remember { new .standard with
          state := { State.initial .standard with pc := 0x202, refused := true } }
        (State.initial .standard) 0x0000 := by
  have fetched : (new .standard).peek (new .standard).state.pc = some 0x0000 := by
    simp [peek, Memory.word?, new, State.initial, Memory.initial, Rom.start, Font.start]
    rfl
  exact (step_of_ok fetched rfl).1

/-- `A050` and `D001` draw a row of the first glyph, here in the corner. -/
private theorem draw_corner {m : Machine} (memory : m.step.machine.state.memory = .initial)
    (origin : m.step.machine.state.v 0 = 0) (blank : m.step.machine.state.screen = .blank) :
    let drawn := m.performAll [.step, .execute 0xA050, .execute 0xD001]
    drawn.state.redraw = true ∧ drawn.history = m.step.machine.history ∧
    drawn.state.screen = Screen.blank.flip (Screen.stamp 0 0 [Memory.initial.read 0x50]) := by
  intro drawn
  let pointed := (m.step.machine.execute 0xA050).machine
  have pointed_eq : pointed = { m.step.machine with
      state := { m.step.machine.state with index := 0x50, refused := false } } :=
    (execute_of_ok rfl).1
  have drawn_eq : (pointed.execute 0xD001).machine = { pointed with state := _ } :=
    (execute_of_ok rfl).1
  have reached : drawn = (pointed.execute 0xD001).machine := rfl
  rw [reached, drawn_eq, pointed_eq, ← memory, ← blank, ← origin]
  exact ⟨rfl, rfl, rfl⟩

/-- A rewind can hide a change: a step, a row drawn and shown, and the step undone. The screen is blank
again, but no picture of that is to be had. -/
theorem rewind_hides_change :
    let start := new .standard
    let ops : List Operation := [.step, .execute 0xA050, .execute 0xD001, .takeFrame, .rewind]
    (start.performAll ops).takeFrame.result = none ∧
      (start.performAll ops).state.screen ≠ (watch start ops).shown := by
  intro start ops
  have remembered : start.step.machine.history = [State.initial .standard] := by
    rw [new_step]
    rfl
  obtain ⟨wish, history, picture⟩ := draw_corner (m := start)
    (by rw [new_step]; rfl) (by rw [new_step]; rfl) (by rw [new_step]; rfl)
  have whole : ops = [.step, .execute 0xA050, .execute 0xD001] ++ [.takeFrame, .rewind] := rfl
  obtain ⟨back, shown⟩ := shown_after_rewind wish (history.trans remembered)
  rw [whole, takeFrame_result_eq_none_iff, back, shown, picture]
  exact ⟨rfl, corner_drawn.symm⟩

end ChipEight.Machine
