import ChipEight.Host.KeyPress
import ChipEight.Proofs.Text.Blank
import ChipEight.Proofs.Text.Numeral
/-!
# What is a key press

A scripted key press has a grammar, and every text outside it has one thing wrong with it that is
told first: the colon before the frame, and the frame before the key. `Writes` and `Refuses` say so
without reading, and `read_follows_grammar` that reading agrees with them on every text.
-/
namespace ChipEight.Host.KeyPress

open Text

/-- The text is a frame number, white space around it aside. -/
def WritesFrame (text : List Char) (frame : Nat) : Prop :=
  ∃ core, Stripped text core ∧ Numeral.Denotes frameBound core frame

/-- The text is one character that stands for the key, white space around it aside. -/
def WritesKey (text : List Char) (key : Key) : Prop :=
  ∃ c, Stripped text [c] ∧ keymap c = some key

/-- The first colon of a text is between its two parts. -/
structure Parts (text left right : List Char) : Prop where
  parted : text = left ++ ':' :: right
  first : ':' ∉ left

/-- The text writes the key press. -/
def Writes (text : List Char) (press : KeyPress) : Prop :=
  ∃ left right, Parts text left right ∧ WritesFrame left press.frame ∧ WritesKey right press.key

/-- The text is no key, and this is what is wrong with it. -/
inductive RefusesKey (text : List Char) : Refusal → Prop
  | notOneKey {core : List Char} (stripped : Stripped text core) (count : core.length ≠ 1) :
    RefusesKey text (.notOneKey text)
  | unmapped {c : Char} (stripped : Stripped text [c]) (free : keymap c = none) :
    RefusesKey text (.unmapped c)

/-- The text writes no key press, and this is what is wrong with it. Nothing is asked of the key
when the frame is bad. -/
inductive Refuses (text : List Char) : Refusal → Prop
  | noColon (without : ':' ∉ text) : Refuses text (.noColon text)
  | badFrame {left right core : List Char} {reason : Numeral.Refusal}
    (parts : Parts text left right) (stripped : Stripped left core)
    (fails : Numeral.Fails frameBound core reason) : Refuses text (.badFrame left reason)
  | badKey {left right : List Char} {frame : Nat} {refusal : Refusal}
    (parts : Parts text left right) (sound : WritesFrame left frame)
    (refuses : RefusesKey right refusal) : Refuses text refusal

/-! ## The two parts -/

theorem splitColon?_eq_none_iff (text : List Char) : splitColon? text = none ↔ ':' ∉ text := by
  fun_induction splitColon? text with
  | case1 => simp
  | case2 rest => simp
  | case3 c rest other ih => simp [ih, Ne.symm other]

theorem parts_colon_iff (rest left right : List Char) :
    Parts (':' :: rest) left right ↔ left = [] ∧ right = rest := by
  constructor
  · rintro ⟨parted, first⟩
    cases left with
    | nil => exact ⟨rfl, (List.tail_eq_of_cons_eq parted).symm⟩
    | cons c left =>
      obtain rfl : ':' = c := List.head_eq_of_cons_eq parted
      exact absurd List.mem_cons_self first
  · rintro ⟨rfl, rfl⟩
    exact ⟨rfl, List.not_mem_nil⟩

theorem parts_cons_iff {c : Char} (other : c ≠ ':') (rest left right : List Char) :
    Parts (c :: rest) left right ↔ ∃ left', left = c :: left' ∧ Parts rest left' right := by
  constructor
  · rintro ⟨parted, first⟩
    cases left with
    | nil => exact absurd (List.head_eq_of_cons_eq parted) other
    | cons d left =>
      obtain ⟨rfl, shorter⟩ := List.cons.inj parted
      exact ⟨left, rfl, ⟨shorter, fun early => first (List.mem_cons_of_mem c early)⟩⟩
  · rintro ⟨left, rfl, rfl, first⟩
    exact ⟨rfl, List.not_mem_cons_of_ne_of_not_mem other.symm first⟩

theorem splitColon?_eq_some_iff (text left right : List Char) :
    splitColon? text = some (left, right) ↔ Parts text left right := by
  fun_induction splitColon? text generalizing left with
  | case1 => exact ⟨nofun, fun parts => absurd parts.parted (by simp)⟩
  | case2 rest => simp [parts_colon_iff, eq_comm]
  | case3 c rest other ih =>
    rw [parts_cons_iff other, Option.map_eq_some_iff]
    constructor
    · rintro ⟨⟨left', right'⟩, found, same⟩
      obtain ⟨rfl, rfl⟩ := Prod.mk.inj same
      exact ⟨left', rfl, (ih left').mp found⟩
    · rintro ⟨left', rfl, parts⟩
      exact ⟨(left', right), (ih left').mpr parts, rfl⟩

theorem exists_parts {text : List Char} (colon : ':' ∈ text) :
    ∃ left right, Parts text left right := by
  cases found : splitColon? text with
  | none => exact absurd colon ((splitColon?_eq_none_iff text).mp found)
  | some parts => exact ⟨parts.1, parts.2, (splitColon?_eq_some_iff text _ _).mp found⟩

/-- There is one way to part a text. -/
theorem Parts.unique {text left right left' right' : List Char} (parts : Parts text left right)
    (parts' : Parts text left' right') : left = left' ∧ right = right' := by
  rw [← splitColon?_eq_some_iff] at parts parts'
  exact Prod.mk.inj (Option.some.inj (parts.symm.trans parts'))

/-! ## The frame -/

theorem frameBound_pos : 0 < frameBound := by decide

theorem readFrame_eq_ok_iff (text : List Char) (frame : Nat) :
    Numeral.read frameBound (trim text) = .ok frame ↔ WritesFrame text frame := by
  simp only [WritesFrame, ← trim_eq_iff, exists_eq_left', Numeral.read_eq_ok_iff frameBound_pos]

theorem readFrame_eq_error_iff (text : List Char) (reason : Numeral.Refusal) :
    Numeral.read frameBound (trim text) = .error reason ↔
      ∃ core, Stripped text core ∧ Numeral.Fails frameBound core reason := by
  simp only [← trim_eq_iff, exists_eq_left', Numeral.read_eq_error_iff frameBound_pos]

theorem writesFrame_or_fails (text : List Char) :
    (∃ frame, WritesFrame text frame) ∨
    ∃ core reason, Stripped text core ∧ Numeral.Fails frameBound core reason := by
  cases found : Numeral.read frameBound (trim text) with
  | ok frame => exact .inl ⟨frame, (readFrame_eq_ok_iff text frame).mp found⟩
  | error reason =>
    obtain ⟨core, stripped, fails⟩ := (readFrame_eq_error_iff text reason).mp found
    exact .inr ⟨core, reason, stripped, fails⟩

/-! ## The key -/

theorem readKey_of_stripped {text : List Char} {c : Char} (stripped : Stripped text [c]) :
    readKey text = match keymap c with
      | some key => .ok key
      | none => .error (.unmapped c) := by
  cases mapped : keymap c <;> simp only [readKey, trim_of_stripped stripped, mapped]

theorem readKey_of_count {text core : List Char} (stripped : Stripped text core)
    (count : core.length ≠ 1) : readKey text = .error (.notOneKey text) := by
  rw [readKey, trim_of_stripped stripped]
  split
  next c => exact absurd rfl count
  next => rfl

theorem readKey_of_writes {text : List Char} {key : Key} (writes : WritesKey text key) :
    readKey text = .ok key := by
  obtain ⟨c, stripped, mapped⟩ := writes
  rw [readKey_of_stripped stripped, mapped]

theorem readKey_of_refuses {text : List Char} {refusal : Refusal}
    (refuses : RefusesKey text refusal) : readKey text = .error refusal := by
  cases refuses with
  | notOneKey stripped count => exact readKey_of_count stripped count
  | unmapped stripped free => rw [readKey_of_stripped stripped, free]

theorem writesKey_or_refusesKey (text : List Char) :
    (∃ key, WritesKey text key) ∨ ∃ refusal, RefusesKey text refusal := by
  have stripped := stripped_trim text
  by_cases count : (trim text).length = 1
  · obtain ⟨c, same⟩ := List.length_eq_one_iff.mp count
    rw [same] at stripped
    cases mapped : keymap c with
    | some key => exact .inl ⟨key, c, stripped, mapped⟩
    | none => exact .inr ⟨_, .unmapped stripped mapped⟩
  · exact .inr ⟨_, .notOneKey stripped count⟩

/-! ## Whole texts -/

/-- A text writes a key press, or there is something wrong with it. -/
theorem writes_or_refuses (text : List Char) :
    (∃ press, Writes text press) ∨ ∃ refusal, Refuses text refusal := by
  by_cases without : ':' ∉ text
  · exact .inr ⟨_, .noColon without⟩
  obtain ⟨left, right, parts⟩ := exists_parts (not_not.mp without)
  rcases writesFrame_or_fails left with ⟨frame, sound⟩ | ⟨core, reason, stripped, fails⟩
  · rcases writesKey_or_refusesKey right with ⟨key, writes⟩ | ⟨refusal, refuses⟩
    · exact .inl ⟨⟨frame, key⟩, left, right, parts, sound, writes⟩
    · exact .inr ⟨refusal, .badKey parts sound refuses⟩
  · exact .inr ⟨_, .badFrame parts stripped fails⟩

theorem read_of_parts {text left right : List Char} (parts : Parts text left right) :
    read text = match Numeral.read frameBound (trim left) with
      | .error reason => .error (.badFrame left reason)
      | .ok frame => (readKey right).map (KeyPress.mk frame) := by
  simp only [read, (splitColon?_eq_some_iff text left right).mpr parts]
  cases Numeral.read frameBound (trim left) with
  | error reason => rfl
  | ok frame => cases readKey right <;> rfl

theorem read_of_frame {text left right : List Char} {frame : Nat} (parts : Parts text left right)
    (sound : WritesFrame left frame) : read text = (readKey right).map (KeyPress.mk frame) := by
  rw [read_of_parts parts, (readFrame_eq_ok_iff left frame).mpr sound]

theorem read_of_writes {text : List Char} {press : KeyPress} (writes : Writes text press) :
    read text = .ok press := by
  obtain ⟨left, right, parts, sound, key⟩ := writes
  rw [read_of_frame parts sound, readKey_of_writes key]
  rfl

theorem read_of_refuses {text : List Char} {refusal : Refusal} (refuses : Refuses text refusal) :
    read text = .error refusal := by
  cases refuses with
  | noColon without => rw [read, (splitColon?_eq_none_iff text).mpr without]
  | @badFrame left _ core reason parts stripped fails =>
    rw [read_of_parts parts, (readFrame_eq_error_iff left reason).mpr ⟨core, stripped, fails⟩]
  | badKey parts sound refuses =>
    rw [read_of_frame parts sound, readKey_of_refuses refuses]
    rfl

theorem read_eq_ok_iff (text : List Char) (press : KeyPress) :
    read text = .ok press ↔ Writes text press := by
  refine ⟨fun found => ?_, read_of_writes⟩
  rcases writes_or_refuses text with ⟨press', writes⟩ | ⟨refusal, refuses⟩
  · rw [read_of_writes writes] at found
    exact Except.ok.inj found ▸ writes
  · rw [read_of_refuses refuses] at found
    cases found

theorem read_eq_error_iff (text : List Char) (refusal : Refusal) :
    read text = .error refusal ↔ Refuses text refusal := by
  refine ⟨fun found => ?_, read_of_refuses⟩
  rcases writes_or_refuses text with ⟨press, writes⟩ | ⟨refusal', refuses⟩
  · rw [read_of_writes writes] at found
    cases found
  · rw [read_of_refuses refuses] at found
    exact Except.error.inj found ▸ refuses

/-! ## Which refusal it is -/

theorem exists_noColon_iff (text : List Char) :
    (∃ told, read text = .error (.noColon told)) ↔ ':' ∉ text := by
  constructor
  · rintro ⟨told, found⟩
    cases (read_eq_error_iff text _).mp found with
    | noColon without => exact without
    | badKey _ _ refuses => cases refuses
  · intro without
    exact ⟨text, read_of_refuses (.noColon without)⟩

section Parted

variable {text left right core : List Char} {frame : Nat}

theorem exists_badFrame_iff (parts : Parts text left right) :
    (∃ told reason, read text = .error (.badFrame told reason)) ↔
      ¬ ∃ frame, WritesFrame left frame := by
  constructor
  · rintro ⟨told, reason, found⟩ ⟨frame, sound⟩
    cases (read_eq_error_iff text _).mp found with
    | badFrame parts' stripped fails =>
      obtain ⟨rfl, -⟩ := parts.unique parts'
      have bad := (readFrame_eq_error_iff left reason).mpr ⟨_, stripped, fails⟩
      rw [(readFrame_eq_ok_iff left frame).mpr sound] at bad
      cases bad
    | badKey _ _ refuses => cases refuses
  · intro bad
    obtain ⟨core, reason, stripped, fails⟩ := (writesFrame_or_fails left).resolve_left bad
    exact ⟨left, reason, read_of_refuses (.badFrame parts stripped fails)⟩

theorem exists_notOneKey_iff (parts : Parts text left right) (sound : WritesFrame left frame)
    (stripped : Stripped right core) :
    (∃ told, read text = .error (.notOneKey told)) ↔ core.length ≠ 1 := by
  constructor
  · rintro ⟨told, found⟩
    cases (read_eq_error_iff text _).mp found with
    | badKey parts' _ refuses =>
      obtain ⟨-, rfl⟩ := parts.unique parts'
      cases refuses with
      | notOneKey stripped' count => rwa [stripped.unique stripped']
  · intro count
    exact ⟨right, read_of_refuses (.badKey parts sound (.notOneKey stripped count))⟩

theorem exists_unmapped_iff (parts : Parts text left right) (sound : WritesFrame left frame)
    (stripped : Stripped right core) :
    (∃ told, read text = .error (.unmapped told)) ↔ ∃ c, core = [c] ∧ keymap c = none := by
  constructor
  · rintro ⟨told, found⟩
    cases (read_eq_error_iff text _).mp found with
    | badKey parts' _ refuses =>
      obtain ⟨-, rfl⟩ := parts.unique parts'
      cases refuses with
      | unmapped stripped' free => exact ⟨told, stripped.unique stripped', free⟩
  · rintro ⟨c, rfl, free⟩
    exact ⟨c, read_of_refuses (.badKey parts sound (.unmapped stripped free))⟩

end Parted

/-- Key presses are read by their grammar: a text is read as a key press exactly when it writes that
one, and refused for exactly what is wrong with it. The colon is asked for first, then the frame
whatever the key, and then the key, by how much of it there is. -/
theorem read_follows_grammar (text : List Char) :
    (∀ press, read text = .ok press ↔ Writes text press) ∧
    (∀ refusal, read text = .error refusal ↔ Refuses text refusal) ∧
    ((∃ told, read text = .error (.noColon told)) ↔ ':' ∉ text) ∧
    ∀ left right, Parts text left right →
      ((∃ told reason, read text = .error (.badFrame told reason)) ↔
        ¬ ∃ frame, WritesFrame left frame) ∧
      ∀ frame core, WritesFrame left frame → Stripped right core →
        ((∃ told, read text = .error (.notOneKey told)) ↔ core.length ≠ 1) ∧
        ((∃ told, read text = .error (.unmapped told)) ↔ ∃ c, core = [c] ∧ keymap c = none) := by
  refine ⟨read_eq_ok_iff text, read_eq_error_iff text, exists_noColon_iff text, ?_⟩
  intro left right parts
  refine ⟨exists_badFrame_iff parts, ?_⟩
  intro frame core sound stripped
  exact ⟨exists_notOneKey_iff parts sound stripped, exists_unmapped_iff parts sound stripped⟩

/-- The frame is told of before the key, and a numeral by its first bad character. -/
example : read " 12x4:qq".toList = .error (.badFrame " 12x4".toList .invalidDigit) := by decide

end ChipEight.Host.KeyPress
