import ChipEight.Proofs.Instruction.Assembly
import ChipEight.Proofs.Machine.Failure
import ChipEight.Proofs.Machine.Lookahead
import ChipEight.Report.RegisterDump
/-!
# Register dumps read back

A register dump shows everything that it is about: from two equal dumps one can tell that the machines
have equal registers, timers, stacks, keys and pasts (`alike_of_registerDump`). Its last section looks
ahead, and the line marked there is the next step's.
-/
namespace ChipEight.Report.RegisterDump

open Text

/-! ## Lines -/

section Lines

variable {s t : State}

theorem isPart_append_padded {c : Char} (other : Hex.value? c = none) {front : String}
    (outside : c ∉ front.toList) (width n : Nat) : IsPart c (front ++ Hex.padded width n) := by
  rw [IsPart, String.toList_append]
  constructor
  · exact List.append_ne_nil_of_right_ne_nil _ (Hex.padded_ne_nil width n)
  · exact List.not_mem_append outside (Hex.notMem_padded other width n)

theorem isPart_registerCell (s : State) (r : Register) : IsPart ' ' (registerCell s r) := by
  have blank : Hex.value? ' ' = none := by decide
  refine isPart_append_padded blank ?_ 2 _
  simpa [String.toList_append] using Hex.notMem_padded blank 1 r.val

theorem registerCell_inj {r : Register} (same : registerCell s r = registerCell t r) :
    s.v r = t.v r :=
  UInt8.toNat_inj.mp (Hex.padded_inj ((String.append_right_inj _).mp same))

theorem v_of_registerLine {first : Nat} (same : registerLine s first = registerLine t first) (k : Nat)
    (inside : k < 8) : s.v (Fin.ofNat 16 (first + k)) = t.v (Fin.ofNat 16 (first + k)) := by
  have cells {s : State} : ∀ x ∈ (List.range 8).map fun k => registerCell s (Fin.ofNat 16 (first + k)),
      IsPart ' ' x := by
    intro x part
    obtain ⟨k, -, rfl⟩ := List.mem_map.mp part
    exact isPart_registerCell s _
  have parts := parts_inj rfl cells cells same
  exact registerCell_inj (List.map_inj_left.mp parts k (List.mem_range.mpr inside))

theorem registers_of_lines (low : registerLine s 0 = registerLine t 0)
    (high : registerLine s 8 = registerLine t 8) : s.registers = t.registers := by
  refine Vector.ext fun r inside => ?_
  have here : s.v (Fin.ofNat 16 r) = t.v (Fin.ofNat 16 r) := by
    by_cases half : r < 8
    · have shown := v_of_registerLine low r half
      rwa [Nat.zero_add] at shown
    · have shown := v_of_registerLine high (r - 8) (by omega)
      rwa [Nat.add_sub_cancel' (Nat.le_of_not_lt half)] at shown
  simpa only [State.v, Fin.getElem_fin, Fin.val_ofNat, Nat.mod_eq_of_lt inside] using here

theorem counterLine_eq (s : State) : counterLine s = " ".intercalate
    ["I=" ++ Hex.padded 3 s.index.toNat, "PC=" ++ Hex.padded 3 s.pc.toNat,
      "DT=" ++ Hex.padded 2 s.delay.value.toNat, "ST=" ++ Hex.padded 2 s.sound.value.toNat] := by
  simp [counterLine, ← String.toList_inj, String.toList_append]

theorem counters_of_line (same : counterLine s = counterLine t) :
    s.index = t.index ∧ s.pc = t.pc ∧ s.delay = t.delay ∧ s.sound = t.sound := by
  have cells (s : State) : ∀ x ∈ ["I=" ++ Hex.padded 3 s.index.toNat,
      "PC=" ++ Hex.padded 3 s.pc.toNat, "DT=" ++ Hex.padded 2 s.delay.value.toNat,
      "ST=" ++ Hex.padded 2 s.sound.value.toNat], IsPart ' ' x := by
    have blank : Hex.value? ' ' = none := by decide
    simp only [List.forall_mem_cons, List.not_mem_nil, false_imp_iff, implies_true, and_true]
    refine ⟨?_, ?_, ?_, ?_⟩ <;> exact isPart_append_padded blank (by decide) _ _
  rw [counterLine_eq, counterLine_eq] at same
  have parts := parts_inj rfl (cells s) (cells t) same
  simp only [List.cons.injEq, String.append_right_inj, and_true] at parts
  obtain ⟨index, pc, delay, sound⟩ := parts
  have timer {x y : Timer} (same : x.value.toNat = y.value.toNat) : x = y :=
    congrArg Timer.mk (UInt8.toNat_inj.mp same)
  exact ⟨UInt16.toNat_inj.mp (Hex.padded_inj index), UInt16.toNat_inj.mp (Hex.padded_inj pc),
    timer (Hex.padded_inj delay), timer (Hex.padded_inj sound)⟩

/-- Numbers in a row are told apart by any separator that starts with no digit. -/
theorem map_padded_inj {α : Type} {value : α → Nat} (told : ∀ a b, value a = value b → a = b)
    {between : String} {c : Char} {sep : List Char} (starts : between.toList = c :: sep)
    (other : Hex.value? c = none) {width : Nat} {as bs : List α}
    (same : between.intercalate (as.map fun a => Hex.padded width (value a)) =
      between.intercalate (bs.map fun a => Hex.padded width (value a))) : as = bs := by
  have sound {as : List α} : ∀ x ∈ as.map fun a => Hex.padded width (value a), IsPart c x := by
    intro x part
    obtain ⟨a, -, rfl⟩ := List.mem_map.mp part
    exact ⟨Hex.padded_ne_nil _ _, Hex.notMem_padded other _ _⟩
  have parts := parts_inj starts sound sound same
  exact (List.map_inj_right fun a b same => told a b (Hex.padded_inj same)).mp parts

theorem frames_of_stackLine (same : stackLine s = stackLine t) : s.stack.frames = t.stack.frames := by
  rw [stackLine, stackLine, String.append_left_inj, String.append_right_inj] at same
  have frames := map_padded_inj (fun _ _ => UInt16.toNat_inj.mp) rfl (by decide) same
  exact List.reverse_inj.mp frames

theorem down_of_keysLine (same : keysLine s = keysLine t) : s.keypad.down = t.keypad.down := by
  rw [keysLine, keysLine, String.append_left_inj, String.append_right_inj] at same
  exact map_padded_inj (fun _ _ => Fin.ext) rfl (by decide) same

theorem isDown_of_down {p q : Keypad} (same : p.down = q.down) (k : Key) :
    p.isDown k = q.isDown k := by
  have listed (p : Keypad) : k ∈ p.down ↔ p.isDown k = true := by
    simp [Keypad.down, Key.all]
  rw [Bool.eq_iff_iff, ← listed, ← listed, same]

theorem opcodeCell_inj {op op' : Opcode} (same : opcodeCell op = opcodeCell op') : op = op' := by
  have cut := congrArg (List.take 4 ∘ String.toList) same
  have width (op : Opcode) : (Hex.padded 4 op.toNat).toList.length = 4 :=
    Hex.length_padded op.toNat_lt
  simp only [Function.comp, opcodeCell, String.toList_append, List.append_assoc,
    List.take_left' (width _)] at cut
  exact UInt16.toNat_inj.mp (Hex.padded_inj (String.toList_injective cut))

end Lines

/-! ## Sections -/

/-- The lines of a dump under `recent:`. -/
def recentSection (text : List Char) : List (List Char) :=
  ((Text.lines text).dropWhile (· != "recent:".toList)).tail.takeWhile (· != "next:".toList)

/-- The lines of a dump under `next:`. -/
def nextSection (text : List Char) : List (List Char) :=
  ((Text.lines text).dropWhile (· != "next:".toList)).tail

/-- The lines of a dump before its lists of opcodes. -/
def headLines (s : State) : List String :=
  [registerLine s 0, registerLine s 8, counterLine s, stackLine s, keysLine s] ++ refusalLines s

theorem lines_eq (m : Machine) : lines m = headLines m.state ++
    "recent:" :: (m.pastOpcodes.map recentLine ++
      "next:" :: nextLines (m.opcodesFrom m.state.pc ahead)) := by
  simp [lines, headLines]

theorem getElem?_nextLines (entries : List (UInt16 × Opcode)) (j : Nat) :
    (nextLines entries)[j]? = entries[j]?.map (nextLine (if j = 0 then ">" else " ")) := by
  cases entries with
  | nil => rfl
  | cons first rest =>
    cases j with
    | zero => rfl
    | succ j => exact List.getElem?_map

theorem length_nextLines (entries : List (UInt16 × Opcode)) :
    (nextLines entries).length = entries.length := by
  cases entries with
  | nil => rfl
  | cons first rest => simp [nextLines]

@[simp] theorem onOneLine_opcodeCell (op : Opcode) : OnOneLine (opcodeCell op) := by
  simp +decide [opcodeCell, Opcode.assembly]

theorem onOneLine_registerLine (s : State) (first : Nat) : OnOneLine (registerLine s first) := by
  refine onOneLine_intercalate (by decide) fun x part => ?_
  obtain ⟨k, -, rfl⟩ := List.mem_map.mp part
  simp +decide [registerCell]

theorem onOneLine_map_padded {α : Type} {between : String} (bare : OnOneLine between) (width : Nat)
    (value : α → Nat) (as : List α) :
    OnOneLine (between.intercalate (as.map fun a => Hex.padded width (value a))) := by
  refine onOneLine_intercalate bare fun x part => ?_
  obtain ⟨a, -, rfl⟩ := List.mem_map.mp part
  exact onOneLine_padded width _

theorem onOneLine_stackLine (s : State) : OnOneLine (stackLine s) := by
  have bare : OnOneLine ", " := by decide
  simp +decide [stackLine, onOneLine_map_padded bare 3 UInt16.toNat s.stack.toList]

theorem onOneLine_keysLine (s : State) : OnOneLine (keysLine s) := by
  have bare : OnOneLine " " := by decide
  have keys : OnOneLine (" ".intercalate (s.keypad.down.map Key.name)) :=
    onOneLine_map_padded bare 1 Fin.val s.keypad.down
  simp +decide [keysLine, keys]

theorem onOneLine_headLines (s : State) : ∀ l ∈ headLines s, OnOneLine l := by
  intro l among
  rcases List.mem_append.mp among with front | refusal
  · simp only [List.mem_cons, List.not_mem_nil, or_false] at front
    rcases front with rfl | rfl | rfl | rfl | rfl
    · exact onOneLine_registerLine s 0
    · exact onOneLine_registerLine s 8
    · simp +decide [counterLine]
    · exact onOneLine_stackLine s
    · exact onOneLine_keysLine s
  · unfold refusalLines at refusal
    split at refusal
    · rw [List.mem_singleton.mp refusal]
      decide
    · cases refusal

theorem onOneLine_nextLines (entries : List (UInt16 × Opcode)) :
    ∀ l ∈ nextLines entries, OnOneLine l := by
  have shown (marker : String) (bare : OnOneLine marker) (e : UInt16 × Opcode) :
      OnOneLine (nextLine marker e) := by
    simp +decide [nextLine, bare]
  intro l among
  obtain ⟨j, here⟩ := List.mem_iff_getElem?.mp among
  rw [getElem?_nextLines] at here
  obtain ⟨e, -, rfl⟩ := Option.map_eq_some_iff.mp here
  split
  · exact shown ">" (by decide) e
  · exact shown " " (by decide) e

theorem onOneLine_lines (m : Machine) : ∀ l ∈ lines m, OnOneLine l := by
  intro l among
  rw [lines_eq] at among
  rcases List.mem_append.mp among with front | among
  · exact onOneLine_headLines m.state l front
  rcases List.mem_cons.mp among with rfl | among
  · decide
  rcases List.mem_append.mp among with recent | among
  · obtain ⟨op, -, rfl⟩ := List.mem_map.mp recent
    simp +decide [recentLine]
  rcases List.mem_cons.mp among with rfl | next
  · decide
  · exact onOneLine_nextLines _ l next

theorem lines_registerDump (m : Machine) :
    Text.lines (registerDump m).toList = (lines m).map String.toList :=
  lines_join (onOneLine_lines m)

theorem head?_registerLine (s : State) (first : Nat) :
    (registerLine s first).toList.head? = some 'V' := by
  have cells : (List.range 8).map (fun k => registerCell s (Fin.ofNat 16 (first + k))) =
      registerCell s (Fin.ofNat 16 first) ::
        [1, 2, 3, 4, 5, 6, 7].map fun k => registerCell s (Fin.ofNat 16 (first + k)) := rfl
  rw [registerLine, cells, String.toList_intercalate, List.map_cons, intercalate_cons_eq]
  simp [registerCell, String.toList_append]

theorem head?_of_mem_headLines {s : State} {l : String} (among : l ∈ headLines s) :
    l.toList.head? ∈ [some 'V', some 'I', some 's', some 'k', some 'l'] := by
  have refusal : ∀ l ∈ refusalLines s, l.toList.head? = some 'l' := by
    unfold refusalLines
    split
    · decide
    · exact nofun
  rcases List.mem_append.mp among with front | last
  · simp only [List.mem_cons, List.not_mem_nil, or_false] at front
    rcases front with rfl | rfl | rfl | rfl | rfl
    · simp [head?_registerLine]
    · simp [head?_registerLine]
    · simp [counterLine, String.toList_append]
    · simp [stackLine, String.toList_append]
    · simp [keysLine, String.toList_append]
  · simp [refusal l last]

theorem toList_mem_map_iff (ls : List String) (l : String) :
    l.toList ∈ ls.map String.toList ↔ l ∈ ls :=
  List.mem_map_of_injective fun _ _ => String.toList_injective

theorem recent_notMem_headLines (s : State) : "recent:" ∉ headLines s :=
  fun among => absurd (head?_of_mem_headLines among) (by decide)

theorem next_notMem_recentLines (ops : List Opcode) : "next:" ∉ ops.map recentLine := by
  intro among
  obtain ⟨op, -, same⟩ := List.mem_map.mp among
  have first := congrArg (·.toList.head?) same
  simp [recentLine, String.toList_append] at first

theorem next_notMem_front (m : Machine) :
    "next:" ∉ headLines m.state ++ "recent:" :: m.pastOpcodes.map recentLine := by
  simp only [List.mem_append, List.mem_cons, not_or]
  refine ⟨fun among => ?_, by decide, next_notMem_recentLines _⟩
  exact absurd (head?_of_mem_headLines among) (by decide)

theorem recentSection_registerDump (m : Machine) :
    recentSection (registerDump m).toList = (m.pastOpcodes.map recentLine).map String.toList := by
  have head := mt (toList_mem_map_iff _ _).mp (recent_notMem_headLines m.state)
  have recent := mt (toList_mem_map_iff _ _).mp (next_notMem_recentLines m.pastOpcodes)
  rw [recentSection, lines_registerDump, lines_eq, List.map_append, List.map_cons, List.map_append,
    dropWhile_part head, List.tail_cons, takeWhile_part recent]
  exact fun l first => (Option.some.inj first).symm

theorem nextSection_registerDump (m : Machine) :
    nextSection (registerDump m).toList =
      (nextLines (m.opcodesFrom m.state.pc ahead)).map String.toList := by
  have front := mt (toList_mem_map_iff _ _).mp (next_notMem_front m)
  rw [nextSection, lines_registerDump, lines_eq, ← List.cons_append, ← List.append_assoc,
    List.map_append, List.map_cons, dropWhile_part front, List.tail_cons]

/-! ## What two dumps tell -/

/-- The machines are alike in all that a dump shows. -/
structure Alike (m n : Machine) : Prop where
  registers : m.state.registers = n.state.registers
  index : m.state.index = n.state.index
  pc : m.state.pc = n.state.pc
  delay : m.state.delay = n.state.delay
  sound : m.state.sound = n.state.sound
  frames : m.state.stack.frames = n.state.stack.frames
  keys (k : Key) : m.state.keypad.isDown k = n.state.keypad.isDown k
  refused : m.state.refused = n.state.refused
  past : m.past = n.past

theorem lines_inj {m n : Machine} (same : registerDump m = registerDump n) : lines m = lines n := by
  have shown := congrArg (Text.lines ∘ String.toList) same
  simp only [Function.comp, lines_registerDump] at shown
  exact (List.map_inj_right fun _ _ => String.toList_injective).mp shown

theorem refused_of_refusalLines {s t : State} (same : refusalLines s = refusalLines t) :
    s.refused = t.refused := by
  unfold refusalLines at same
  cases refused : s.refused <;> cases refused' : t.refused <;> simp [refused, refused'] at same ⊢

theorem alike_of_registerDump {m n : Machine} (same : registerDump m = registerDump n) :
    Alike m n := by
  have same := lines_inj same
  simp only [lines_eq, headLines, List.cons_append, List.nil_append, List.cons.injEq] at same
  obtain ⟨low, high, counters, frames, keys, lists⟩ := same
  obtain ⟨index, pc, delay, sound⟩ := counters_of_line counters
  have outside (s : State) : "recent:" ∉ refusalLines s :=
    fun among => recent_notMem_headLines s (List.mem_append_right _ among)
  have starts {l : String} {behind : List String} : ∀ x ∈ (l :: behind).head?, x = l :=
    fun x first => (Option.some.inj first).symm
  obtain ⟨refusal, lists⟩ := append_inj_of_starts (outside m.state) (outside n.state) starts starts lists
  obtain ⟨recent, -⟩ := append_inj_of_starts (next_notMem_recentLines _) (next_notMem_recentLines _)
    starts starts (List.tail_eq_of_cons_eq lists)
  have past : m.pastOpcodes = n.pastOpcodes :=
    (List.map_inj_right fun _ _ same => opcodeCell_inj ((String.append_right_inj _).mp same)).mp recent
  exact {
    registers := registers_of_lines low high
    index := index
    pc := pc
    delay := delay
    sound := sound
    frames := frames_of_stackLine frames
    keys := isDown_of_down (down_of_keysLine keys)
    refused := refused_of_refusalLines refusal
    past := List.reverse_inj.mp past }

/-! ## What a dump tells of the next step -/

/-- The line has the mark of the next opcode. -/
def isMarked (shown : List Char) : Bool := shown[2]? == some '>'

theorem isMarked_nextLine (e : UInt16 × Opcode) :
    isMarked (nextLine ">" e).toList = true ∧ isMarked (nextLine " " e).toList = false := by
  simp [isMarked, nextLine, String.toList_append]

theorem filter_isMarked (entries : List (UInt16 × Opcode)) :
    ((nextLines entries).map String.toList).filter isMarked =
      entries.head?.toList.map fun e => (nextLine ">" e).toList := by
  cases entries with
  | nil => rfl
  | cons first rest =>
    have others : ((rest.map (nextLine " ")).map String.toList).filter isMarked = [] := by
      refine List.filter_eq_nil_iff.mpr fun line among => ?_
      rw [List.map_map] at among
      obtain ⟨e, -, rfl⟩ := List.mem_map.mp among
      exact Bool.eq_false_iff.mp (isMarked_nextLine e).2
    rw [nextLines, List.map_cons, List.filter_cons_of_pos (isMarked_nextLine first).1, others]
    rfl

theorem head?_opcodesFrom (m : Machine) (a : UInt16) (count : Nat) :
    (m.opcodesFrom a (count + 1)).head? = (m.peek a).map (a, ·) := by
  rw [Machine.opcodesFrom]
  cases m.peek a <;> rfl

/-- The marked lines of a dump: one if there is an opcode at the program counter, none otherwise. -/
theorem marked_registerDump (m : Machine) :
    (nextSection (registerDump m).toList).filter isMarked =
      (m.peek m.state.pc).toList.map fun op => (nextLine ">" (m.state.pc, op)).toList := by
  rw [nextSection_registerDump, filter_isMarked, ahead, head?_opcodesFrom]
  cases m.peek m.state.pc <;> rfl

theorem past_of_step {m : Machine} {op : Opcode} (done : m.step.result = .ok op) :
    m.peek m.state.pc = some op ∧ m.step.machine.pastOpcodes.getLast? = some op := by
  rcases m.step_cases with ⟨op', after, found, -, reached, done'⟩ | ⟨f, -, failed⟩
  · rw [done] at done'
    obtain rfl := Except.ok.inj done'
    refine ⟨found, ?_⟩
    rw [reached, Machine.pastOpcodes, List.getLast?_reverse]
    rfl
  · rw [done] at failed
    cases failed

/-- A step fails at the end of memory exactly where there is no opcode at the program counter. -/
theorem step_outOfBounds_iff (m : Machine) :
    (∃ pc, m.step.result = .error (.pcOutOfBounds pc)) ↔ m.peek m.state.pc = none := by
  constructor
  · rintro ⟨pc, failed⟩
    rcases (m.step_error_iff _).mp failed with ⟨outside, -⟩ | ⟨op, -, fault⟩
    · exact (m.peek_eq_none_iff _).mpr outside
    · obtain ⟨-, ⟨-, -, other⟩ | ⟨-, -, other⟩⟩ := fault <;> cases other
  · intro ended
    exact ⟨_, (Machine.step_of_none ended).2⟩

theorem fetch_eq_ok_iff (m : Machine) (op : Opcode) :
    m.fetch.result = .ok op ↔ m.peek m.state.pc = some op := by
  cases found : m.peek m.state.pc with
  | none => simp [Machine.fetch_of_none found]
  | some op' => simp [Machine.fetch_of_some found]

theorem length_nextSection (m : Machine) :
    (nextSection (registerDump m).toList).length = min 15 ((4096 - m.state.pc.toNat) / 2) := by
  rw [nextSection_registerDump, List.length_map, length_nextLines, Machine.length_opcodesFrom]
  rfl

theorem getElem_nextSection (m : Machine) {j : Nat}
    (within : j < (nextSection (registerDump m).toList).length) :
    ∃ a op, a.toNat = m.state.pc.toNat + 2 * j ∧ m.peek a = some op ∧
      (nextSection (registerDump m).toList)[j] =
        (nextLine (if j = 0 then ">" else " ") (a, op)).toList := by
  have here := List.getElem?_eq_getElem within
  rw [nextSection_registerDump, List.length_map, length_nextLines] at within
  obtain ⟨place, found⟩ := m.getElem_opcodesFrom m.state.pc ahead within
  refine ⟨_, _, place, found, Option.some.inj (here.symm.trans ?_)⟩
  rw [nextSection_registerDump, List.getElem?_map, getElem?_nextLines,
    List.getElem?_eq_getElem within]
  rfl

/-- Two machines of one dump are alike in everything that it shows. The section `next:` has a line for
each opcode from the program counter on, fifteen at most, up to the end of memory and never from its
start again. One of its lines is marked unless a step would fail at the end of memory, and it is the
line of the opcode that is fetched; no other is marked. A successful step puts that opcode last in the
section `recent:`. -/
theorem dump_tells_state_and_step :
    (∀ m n : Machine, registerDump m = registerDump n → Alike m n) ∧
    (∀ m : Machine,
      let next := nextSection (registerDump m).toList
      let marked := next.filter isMarked
      next.length = min 15 ((4096 - m.state.pc.toNat) / 2) ∧
      (∀ (j : Nat) (within : j < next.length), ∃ a op,
        a.toNat = m.state.pc.toNat + 2 * j ∧ a.toNat + 1 < 4096 ∧ m.peek a = some op ∧
        next[j] = (nextLine (if j = 0 then ">" else " ") (a, op)).toList) ∧
      marked.length ≤ 1 ∧
      (marked.length = 1 ↔ ¬ ∃ pc, m.step.result = .error (.pcOutOfBounds pc)) ∧
      ∀ op, m.fetch.result = .ok op ↔ marked = [(nextLine ">" (m.state.pc, op)).toList]) ∧
    ∀ (m : Machine) (op : Opcode), m.step.result = .ok op →
      (nextSection (registerDump m).toList).filter isMarked =
        [(nextLine ">" (m.state.pc, op)).toList] ∧
      (recentSection (registerDump m.step.machine).toList).getLast? =
        some (recentLine op).toList := by
  refine ⟨fun _ _ => alike_of_registerDump, ?_, ?_⟩
  · intro m next marked
    have same : marked = _ := marked_registerDump m
    refine ⟨length_nextSection m, ?_, ?_, ?_, ?_⟩
    · intro j within
      obtain ⟨a, op, place, found, shown⟩ := getElem_nextSection m within
      exact ⟨a, op, place, Machine.lt_of_peek found, found, shown⟩
    · rw [same]
      cases m.peek m.state.pc <;> simp
    · rw [same, step_outOfBounds_iff]
      cases m.peek m.state.pc <;> simp
    · intro op
      rw [same, fetch_eq_ok_iff]
      cases m.peek m.state.pc with
      | none => simp
      | some op' =>
        constructor
        · rintro ⟨⟩
          rfl
        · intro shown
          have line := String.toList_injective (List.singleton_inj.mp shown)
          exact congrArg some (opcodeCell_inj ((String.append_right_inj _).mp line))
  · intro m op done
    obtain ⟨found, last⟩ := past_of_step done
    rw [marked_registerDump, found, recentSection_registerDump, List.getLast?_map, List.getLast?_map,
      last]
    exact ⟨rfl, rfl⟩

end ChipEight.Report.RegisterDump
