import ChipEight.Proofs.Machine.Run
/-!
# Subroutines

How a return finds its call. An operation moves the stack by one address at most (`CallStack.Move`), so
that a stretch of a run which never goes below a depth leaves all that lies under it alone
(`Above.keeps_bottom`). The address that a step pushed is then still there when the stack first falls
back to the depth before that step.
-/
namespace ChipEight

/-! ## Moves of the stack -/

namespace CallStack

/-- `Move s t`: an operation may leave the stack `t` where it met `s`. -/
inductive Move (s : CallStack) : CallStack → Prop where
  | stay : Move s s
  | push (back : UInt16) (room : s.depth < s.limit) : Move s { s with frames := back :: s.frames }
  | pop {back : UInt16} {rest : List UInt16} (frames : s.frames = back :: rest) :
      Move s { s with frames := rest }

theorem toList_cons (s : CallStack) (back : UInt16) (rest : List UInt16) :
    toList { s with frames := back :: rest } = toList { s with frames := rest } ++ [back] :=
  List.reverse_cons

theorem length_toList (s : CallStack) : s.toList.length = s.depth := List.length_reverse

variable {s t : CallStack}

/-- A move keeps the limit, and a stack within it stays so. -/
theorem Move.within {limit : Nat} (move : Move s t) (here : s.limit = limit ∧ s.depth ≤ limit) :
    t.limit = limit ∧ t.depth ≤ limit := by
  obtain ⟨rfl, bounded⟩ := here
  cases move with
  | stay => exact ⟨rfl, bounded⟩
  | push back room => exact ⟨rfl, room⟩
  | pop frames =>
    unfold depth at bounded
    rw [frames] at bounded
    exact ⟨rfl, Nat.le_of_succ_le bounded⟩

theorem Move.depth (move : Move s t) : t.depth ≤ s.depth + 1 ∧ s.depth ≤ t.depth + 1 := by
  unfold CallStack.depth
  cases move with
  | stay => omega
  | push back room => simp only [List.length_cons]; omega
  | pop frames => simp only [frames, List.length_cons]; omega

/-- What lies under both depths is the same before and after. -/
theorem Move.keeps_bottom {d : Nat} (move : Move s t) (before : d ≤ s.depth) (after : d ≤ t.depth) :
    t.toList.take d = s.toList.take d := by
  rw [← length_toList] at before after
  cases move with
  | stay => rfl
  | push back room => rw [toList_cons, List.take_append_of_le_length before]
  | @pop back rest frames =>
    have whole : s.toList = toList { s with frames := rest } ++ [back] := by
      rw [← toList_cons, ← frames]
    rw [whole, List.take_append_of_le_length after]

end CallStack

namespace State

theorem carryOut_move {strict : Bool} {op : Opcode} {s after : State}
    (carried : s.carryOut strict op = .ok after) : s.stack.Move after.stack := by
  rcases carryOut_stack carried with same | ⟨-, room, pushed⟩ | ⟨-, popped⟩
  · rw [same]
    exact .stay
  · rw [pushed]
    exact .push s.pc room
  · have frames : s.stack.frames = after.pc :: after.stack.frames := by rw [popped]
    have rest : after.stack = { s.stack with frames := after.stack.frames } := by rw [popped]
    rw [rest]
    exact .pop frames

end State

namespace Machine

theorem Change.move {m after : Machine} {op : Operation} (change : Change m op after)
    (noRewind : op ≠ .rewind) : m.state.stack.Move after.state.stack := by
  cases change with
  | executed carried result => exact State.carryOut_move carried
  | stepped fetched carried result => exact State.carryOut_move (s := m.advance.state) carried
  | rewound _ | unwound _ => exact absurd rfl noRewind
  | _ => exact .stay

/-- In every reachable state, and in all that is remembered, the stack has the limit of the settings
and keeps within it. -/
theorem stack_within (config : Config) (random : Random.Stream) (ops : List Operation) :
    Everywhere (fun s => s.stack.limit = config.maxStackDepth ∧ s.stack.depth ≤ config.maxStackDepth)
      ((newWith config random).performAll ops) :=
  performAll_everywhere (fun change noRewind => (change.move noRewind).within)
    ⟨⟨rfl, Nat.zero_le _⟩, nofun⟩ ops

/-! ## Depth -/

/-- The single operations `ops`, none of them a rewind, all happen with `d` return addresses or more
on the stack. -/
structure Above (d : Nat) (m : Machine) (ops : List Operation) : Prop where
  forward : ∀ op ∈ ops, op ≠ .rewind ∧ op ≠ .runFrame
  deep : ∀ front, front <+: ops → d ≤ (m.performAll front).state.stack.depth

theorem Above.tail {d : Nat} {m : Machine} {op : Operation} {ops : List Operation}
    (above : Above d m (op :: ops)) : Above d (m.perform op).machine ops where
  forward next mem := above.forward next (List.mem_cons_of_mem op mem)
  deep front initial := above.deep (op :: front) ((List.prefix_cons_inj op).mpr initial)

/-- The lowest `d` return addresses outlast all that happens above them. -/
theorem Above.keeps_bottom {d : Nat} {m : Machine} {ops : List Operation} (above : Above d m ops) :
    (m.performAll ops).state.stack.toList.take d = m.state.stack.toList.take d := by
  induction ops generalizing m with
  | nil => rfl
  | cons op ops ih =>
    have before : d ≤ m.state.stack.depth := above.deep [] List.nil_prefix
    have after : d ≤ (m.perform op).machine.state.stack.depth := above.tail.deep [] List.nil_prefix
    obtain ⟨noRewind, noFrame⟩ := above.forward op List.mem_cons_self
    have move := (change_of_perform m noFrame).move noRewind
    rw [performAll_cons, ih above.tail, move.keeps_bottom before after]

/-- What a step does to the stack. -/
theorem step_stack (m : Machine) :
    m.step.machine.state.stack = m.state.stack ∨
    (m.state.pc.toNat + 1 < 4096 ∧ m.step.machine.state.stack =
      { m.state.stack with frames := (m.state.pc + 2) :: m.state.stack.frames }) ∨
    (m.step.result = .ok 0x00EE ∧ m.state.stack =
      { m.step.machine.state.stack with
        frames := m.step.machine.state.pc :: m.step.machine.state.stack.frames }) := by
  rcases step_cases m with ⟨op, after, fetched, carried, reached, result⟩ | ⟨f, same, -⟩
  · rw [reached, result]
    rcases State.carryOut_stack carried with kept | ⟨-, -, pushed⟩ | ⟨rfl, popped⟩
    · exact Or.inl kept
    · exact Or.inr (Or.inl ⟨lt_of_peek fetched, pushed⟩)
    · exact Or.inr (Or.inr ⟨rfl, popped⟩)
  · exact Or.inl (by rw [same])

/-- A step that makes the stack deeper puts the address behind its opcode on top. -/
theorem step_deeper {m : Machine}
    (deeper : m.step.machine.state.stack.depth = m.state.stack.depth + 1) :
    m.state.pc.toNat + 1 < 4096 ∧
    m.step.machine.state.stack.toList = m.state.stack.toList ++ [m.state.pc + 2] := by
  rcases step_stack m with kept | ⟨inside, pushed⟩ | ⟨-, popped⟩
  · rw [kept] at deeper
    omega
  · rw [pushed]
    exact ⟨inside, CallStack.toList_cons _ _ _⟩
  · have shallower := congrArg CallStack.depth popped
    simp only [CallStack.depth, List.length_cons] at shallower deeper
    omega

/-- A step that makes the stack less deep is a return, and goes to the address that was on top. -/
theorem step_shallower {m : Machine}
    (shallower : m.step.machine.state.stack.depth < m.state.stack.depth) :
    m.step.result = .ok 0x00EE ∧
    m.state.stack.toList =
      m.step.machine.state.stack.toList ++ [m.step.machine.state.pc] := by
  rcases step_stack m with kept | ⟨-, pushed⟩ | ⟨returned, popped⟩
  · rw [kept] at shallower
    omega
  · rw [pushed] at shallower
    simp only [CallStack.depth, List.length_cons] at shallower
    omega
  · exact ⟨returned, (congrArg CallStack.toList popped).trans (CallStack.toList_cons _ _ _)⟩

/-- A call with room for one more address goes deeper, to where it says. -/
theorem step_of_call {m : Machine} {op : Opcode} (fetched : m.peek m.state.pc = some op)
    (family : op.family = 0x2) (room : m.state.stack.depth < m.state.stack.limit) :
    m.step.machine.state.stack.depth = m.state.stack.depth + 1 ∧
    m.step.machine.state.pc = op.nnn.toWord ∧
    m.step.machine.state.memory = m.state.memory := by
  have ran := (Instruction.run_call_eq_ok_iff op.nnn { m.advance.state with refused := false } _).mpr
    ⟨room, rfl⟩
  rw [← (Instruction.decode_eq_call_iff op op.nnn).mpr ⟨family, rfl⟩] at ran
  rw [(step_of_ok fetched (State.carryOut_of_run ran m.config.strict)).1]
  exact ⟨rfl, rfl, rfl⟩

/-- A return with an address to go back to uses it up. -/
theorem step_of_ret {m : Machine} (fetched : m.peek m.state.pc = some 0x00EE)
    (inside : 0 < m.state.stack.depth) :
    m.step.machine.state.stack.depth + 1 = m.state.stack.depth := by
  obtain ⟨back, rest, frames⟩ := List.exists_cons_of_length_pos inside
  have ran := (Instruction.run_ret_eq_ok_iff { m.advance.state with refused := false } _).mpr
    ⟨back, rest, frames, rfl⟩
  rw [← (Instruction.decode_eq_ret_iff 0x00EE).mpr rfl] at ran
  rw [(step_of_ok fetched (State.carryOut_of_run ran m.config.strict)).1, CallStack.depth,
    CallStack.depth, frames]
  rfl

/-- The first step back to the depth before a call is a return, to the address behind the call. -/
theorem return_behind_call {m : Machine} {ops : List Operation}
    (deeper : m.step.machine.state.stack.depth = m.state.stack.depth + 1)
    (above : Above (m.state.stack.depth + 1) m.step.machine ops)
    (back : (m.step.machine.performAll ops).step.machine.state.stack.depth = m.state.stack.depth) :
    (m.step.machine.performAll ops).step.result = .ok 0x00EE ∧
    (m.step.machine.performAll ops).step.machine.state.pc.toNat = m.state.pc.toNat + 2 := by
  have bottom := above.keeps_bottom
  have deep := above.deep ops List.prefix_rfl
  obtain ⟨inside, called⟩ := step_deeper deeper
  generalize m.step.machine.performAll ops = r at *
  obtain ⟨returned, frames⟩ := step_shallower (m := r) (by omega)
  refine ⟨returned, ?_⟩
  -- Here the lowest addresses are the whole stack, before the return as after the call.
  have whole : r.state.stack.toList = m.state.stack.toList ++ [m.state.pc + 2] := by
    rw [called, List.take_of_length_le, List.take_of_length_le] at bottom
    · exact bottom
    · simp [CallStack.length_toList]
    · simp [frames, CallStack.length_toList, back]
  have same := (List.append_inj' (frames.symm.trans whole) rfl).2
  have target : r.step.machine.state.pc = m.state.pc + 2 := List.singleton_inj.mp same
  rw [target, UInt16.toNat_add]
  exact Nat.mod_eq_of_lt (by change m.state.pc.toNat + 2 < 65536; omega)

/-- The discipline of calls and returns, after any operations on a new machine, whatever was loaded. The
depth is within the bound of the settings, and a step changes it by one at most. From there on, as long
as the stack keeps `d` addresses or more, its lowest `d` stay the same; and when a step goes deeper, then
the first to come back to its depth is a return, and it goes to the address behind the opcode that went
deeper. -/
theorem subroutine_discipline (config : Config) (random : Random.Stream) (ops : List Operation) :
    let m := (newWith config random).performAll ops
    let depth := m.state.stack.depth
    depth ≤ config.maxStackDepth ∧
    (m.step.machine.state.stack.depth ≤ depth + 1 ∧
      depth ≤ m.step.machine.state.stack.depth + 1) ∧
    (∀ d more, Above d m more →
      (m.performAll more).state.stack.toList.take d = m.state.stack.toList.take d) ∧
    (m.step.machine.state.stack.depth = depth + 1 → ∀ inside, Above (depth + 1) m.step.machine inside →
      let last := m.step.machine.performAll inside
      last.step.machine.state.stack.depth = depth →
        last.step.result = .ok 0x00EE ∧
        last.step.machine.state.pc.toNat = m.state.pc.toNat + 2) := by
  intro m depth
  have within := (stack_within config random ops).1
  have stepMove : m.state.stack.Move m.step.machine.state.stack :=
    Change.move (change_of_perform m (nofun : Operation.step ≠ .runFrame)) nofun
  refine ⟨within.2, stepMove.depth, ?_, ?_⟩
  · intro d more above
    exact above.keeps_bottom
  · intro deeper inside above last back
    exact return_behind_call deeper above back

/-- A subroutine of nothing but a return is left by the next step, whatever key is pressed before. -/
private theorem called_and_back {m : Machine} {op : Opcode} (k : Key)
    (calls : m.peek m.state.pc = some op) (family : op.family = 0x2)
    (returns : m.peek op.nnn.toWord = some 0x00EE)
    (room : m.state.stack.depth < m.state.stack.limit) :
    let depth := m.state.stack.depth
    m.step.machine.state.stack.depth = depth + 1 ∧
    Above (depth + 1) m.step.machine [.press k] ∧
    (m.step.machine.performAll [.press k]).step.machine.state.stack.depth = depth := by
  intro depth
  obtain ⟨deeper, there, memory⟩ := step_of_call calls family room
  have target : (m.step.machine.press k).peek (m.step.machine.press k).state.pc = some 0x00EE := by
    change m.step.machine.state.memory.word? m.step.machine.state.pc = _
    rw [memory, there]
    exact returns
  refine ⟨deeper, ⟨by simp, ?_⟩, ?_⟩
  · intro front initial
    rcases List.prefix_cons_iff.mp initial with rfl | ⟨rest, rfl, last⟩
    · exact Nat.le_of_eq deeper.symm
    · rw [List.prefix_nil.mp last]
      exact Nat.le_of_eq deeper.symm
  · have shallower := step_of_ret target (by change 0 < m.step.machine.state.stack.depth; omega)
    change _ = m.step.machine.state.stack.depth at shallower
    exact Nat.succ.inj (shallower.trans deeper)

/-- A subroutine that returns at once, with a key pressed inside, is left to the address behind its
call. -/
theorem return_with_key_pressed_inside :
    let start := newWith .standard (.ofSeed 0)
    let load : Operation := .load ⟨#[0x22, 0x04, 0x00, 0x00, 0x00, 0xEE]⟩
    let loaded := start.performAll [load]
    let inside := loaded.step.machine.performAll [.press 7]
    loaded.step.machine.state.stack.depth = 1 ∧ inside.step.machine.state.stack.depth = 0 ∧
    inside.step.result = .ok 0x00EE ∧ inside.step.machine.state.pc.toNat = 0x202 := by
  intro start load loaded inside
  obtain ⟨-, place, stack⟩ := load_keeps start ⟨#[0x22, 0x04, 0x00, 0x00, 0x00, 0xEE]⟩
  have pc : loaded.state.pc = 0x200 := place
  have bare : loaded.state.stack = .empty 16 := stack
  have calls : loaded.peek 0x200 = some 0x2204 :=
    (peek_load start _ (by decide) (by decide)).trans (by decide)
  have returns : loaded.peek 0x204 = some 0x00EE :=
    (peek_load start _ (by decide) (by decide)).trans (by decide)
  obtain ⟨deeper, above, back⟩ :=
    called_and_back 7 (by rw [pc, calls]) (by decide) returns (by rw [bare]; decide)
  obtain ⟨-, -, -, discipline⟩ := subroutine_discipline .standard (.ofSeed 0) [load]
  obtain ⟨returned, behind⟩ := discipline deeper [.press 7] above back
  rw [bare] at deeper back
  rw [pc] at behind
  exact ⟨deeper, back, returned, behind⟩

end Machine

end ChipEight
