import ChipEight.Text.Numeral
import Mathlib.Data.Nat.Digits.Defs
/-!
# Numerals, and what is none

The reader of numerals reckons a number up digit by digit. Here a numeral is told by its form and by
the place value of its digits (`Denotes`), and a text that is none by the character that no numeral
goes on with (`Fails`). The reader accepts the one and refuses the other for that reason
(`read_eq_ok_iff`, `read_eq_error_iff`).
-/
namespace ChipEight.Text.Numeral

/-- The number that a row of digits stands for; the last one counts ones. -/
def value (digits : List Char) : Nat :=
  Nat.ofDigits 10 (digits.reverse.map fun c => c.toNat - '0'.toNat)

/-- Nothing but ASCII digits, with a number below the bound. -/
structure Row (bound : Nat) (text : List Char) : Prop where
  digits : ∀ c ∈ text, c.isDigit = true
  below : value text < bound

/-- The text is a numeral of `n`: one or more digits, perhaps with a `+` before them. -/
def Denotes (bound : Nat) (text : List Char) (n : Nat) : Prop :=
  ∃ digits, (text = digits ∨ text = '+' :: digits) ∧ digits ≠ [] ∧ Row bound digits ∧
    value digits = n

/-- From left to right the text is a row of digits up to one of its characters, and no longer with
it. A character that is no digit is told as one, however large the number. -/
def Stops (bound : Nat) (text : List Char) (reason : Refusal) : Prop :=
  ∃ front c rest, text = front ++ c :: rest ∧ Row bound front ∧ ¬ Row bound (front ++ [c]) ∧
    reason = if c.isDigit then .tooLarge else .invalidDigit

/-- Why the text is no numeral below the bound. A sign counts as none of the digits. -/
inductive Fails (bound : Nat) : List Char → Refusal → Prop
  | empty : Fails bound [] .empty
  | signAlone : Fails bound ['+'] .invalidDigit
  | signed {body : List Char} {reason : Refusal} (stops : Stops bound body reason) :
    Fails bound ('+' :: body) reason
  | unsigned {text : List Char} {reason : Refusal} (plain : text.head? ≠ some '+')
    (stops : Stops bound text reason) : Fails bound text reason

/-! ## Rows of digits -/

theorem value_append_digit (front : List Char) (c : Char) :
    value (front ++ [c]) = value front * 10 + (c.toNat - '0'.toNat) := by
  rw [value, List.reverse_append, List.reverse_singleton, List.singleton_append, List.map_cons,
    Nat.ofDigits_cons, Nat.add_comm, Nat.mul_comm, value]

theorem value_le_append (front rest : List Char) : value front ≤ value (front ++ rest) := by
  induction rest generalizing front with
  | nil => rw [List.append_nil]
  | cons c rest ih =>
    have longer := ih (front ++ [c])
    rw [value_append_digit, List.append_assoc, List.singleton_append] at longer
    omega

theorem digit?_eq (c : Char) :
    digit? c = if c.isDigit then some (c.toNat - '0'.toNat) else none := by
  simp only [digit?, Char.isDigit, Char.le_def, Bool.and_eq_true, decide_eq_true_eq, ge_iff_le]

section Reading

variable {bound : Nat} {front more text : List Char} {c : Char}

theorem row_nil (bounded : 0 < bound) : Row bound [] := ⟨nofun, bounded⟩

/-- What a row begins with is a row. -/
theorem Row.of_append (row : Row bound (front ++ more)) : Row bound front where
  digits c mem := row.digits c (List.mem_append_left more mem)
  below := Nat.lt_of_le_of_lt (value_le_append front more) row.below

theorem Row.append_digit_iff (row : Row bound front) :
    Row bound (front ++ [c]) ↔
      c.isDigit = true ∧ value front * 10 + (c.toNat - '0'.toNat) < bound := by
  rw [← value_append_digit]
  constructor
  · intro longer
    exact ⟨longer.digits c (by simp), longer.below⟩
  · rintro ⟨digit, below⟩
    refine ⟨fun d mem => ?_, below⟩
    rcases List.mem_append.mp mem with early | last
    · exact row.digits d early
    · rwa [List.mem_singleton.mp last]

/-- The reader goes over a row. -/
theorem readDigits_row (front : List Char) (row : Row bound (front ++ more)) (rest : List Char) :
    readDigits bound (value front) (more ++ rest) =
      readDigits bound (value (front ++ more)) rest := by
  induction more generalizing front with
  | nil => rw [List.append_nil, List.nil_append]
  | cons c more ih =>
    rw [List.append_cons] at row ⊢
    obtain ⟨digit, below⟩ := row.of_append.of_append.append_digit_iff.mp row.of_append
    rw [List.cons_append, readDigits, digit?_eq, if_pos digit]
    simp only [below, if_true]
    rw [← value_append_digit]
    exact ih (front ++ [c]) row

/-- The reader stops where a row ends. -/
theorem readDigits_broken (row : Row bound front) (broken : ¬ Row bound (front ++ [c]))
    (rest : List Char) :
    readDigits bound (value front) (c :: rest) =
      .error (if c.isDigit then .tooLarge else .invalidDigit) := by
  rw [row.append_digit_iff] at broken
  rw [readDigits, digit?_eq]
  cases digit : c.isDigit with
  | false => rfl
  | true =>
    have large : ¬ value front * 10 + (c.toNat - '0'.toNat) < bound :=
      fun below => broken ⟨digit, below⟩
    simp only [if_true, large, if_false]

/-- A text is a row, or else it stops at one of its characters. -/
theorem row_or_stops (row : Row bound front) (text : List Char) :
    Row bound (front ++ text) ∨ ∃ reason, Stops bound (front ++ text) reason := by
  induction text generalizing front with
  | nil =>
    rw [List.append_nil]
    exact .inl row
  | cons c rest ih =>
    by_cases longer : Row bound (front ++ [c])
    · rw [List.append_cons]
      exact ih longer
    · exact .inr ⟨_, front, c, rest, rfl, row, longer, rfl⟩

theorem readDigits_of_row (row : Row bound text) : readDigits bound 0 text = .ok (value text) := by
  have read := readDigits_row [] row []
  rwa [List.append_nil] at read

theorem readDigits_of_stops {reason : Refusal} (stops : Stops bound text reason) :
    readDigits bound 0 text = .error reason := by
  obtain ⟨front, c, rest, rfl, row, broken, rfl⟩ := stops
  exact (readDigits_row [] row (c :: rest)).trans (readDigits_broken row broken rest)

theorem readDigits_cases (bounded : 0 < bound) (text : List Char) :
    (Row bound text ∧ readDigits bound 0 text = .ok (value text)) ∨
    ∃ reason, Stops bound text reason ∧ readDigits bound 0 text = .error reason := by
  rcases row_or_stops (row_nil bounded) text with row | ⟨reason, stops⟩
  · exact .inl ⟨row, readDigits_of_row row⟩
  · exact .inr ⟨reason, stops, readDigits_of_stops stops⟩

theorem readDigits_eq_ok_iff (bounded : 0 < bound) (text : List Char) (n : Nat) :
    readDigits bound 0 text = .ok n ↔ Row bound text ∧ value text = n := by
  constructor
  · intro read
    rcases readDigits_cases bounded text with ⟨row, read'⟩ | ⟨reason, -, read'⟩
    · rw [read] at read'
      exact ⟨row, (Except.ok.inj read').symm⟩
    · rw [read] at read'
      cases read'
  · rintro ⟨row, rfl⟩
    exact readDigits_of_row row

theorem readDigits_eq_error_iff (bounded : 0 < bound) (text : List Char) (reason : Refusal) :
    readDigits bound 0 text = .error reason ↔ Stops bound text reason := by
  constructor
  · intro read
    rcases readDigits_cases bounded text with ⟨-, read'⟩ | ⟨told, stops, read'⟩
    · rw [read] at read'
      cases read'
    · rw [read] at read'
      exact Except.error.inj read' ▸ stops
  · exact readDigits_of_stops

end Reading

/-! ## Whole texts -/

theorem read_signed (bound : Nat) (body : List Char) :
    read bound ('+' :: body) =
      if body = [] then .error .invalidDigit else readDigits bound 0 body := by
  cases body <;> rfl

theorem read_plain (bound : Nat) {text : List Char} (plain : text.head? ≠ some '+') :
    read bound text = if text = [] then .error .empty else readDigits bound 0 text := by
  cases text with
  | nil => rfl
  | cons c rest =>
    have other : c ≠ '+' := by simpa using plain
    rw [read] <;> simp [other]

theorem not_row_sign (bound : Nat) (body : List Char) : ¬ Row bound ('+' :: body) := by
  intro row
  exact absurd (row.digits '+' List.mem_cons_self) (by decide)

theorem denotes_signed_iff (bound : Nat) (body : List Char) (n : Nat) :
    Denotes bound ('+' :: body) n ↔ body ≠ [] ∧ Row bound body ∧ value body = n := by
  constructor
  · rintro ⟨digits, same | same, some, row, number⟩
    · exact absurd (same ▸ row) (not_row_sign bound body)
    · obtain rfl : body = digits := List.tail_eq_of_cons_eq same
      exact ⟨some, row, number⟩
  · rintro ⟨some, row, number⟩
    exact ⟨body, .inr rfl, some, row, number⟩

theorem denotes_plain_iff (bound : Nat) {text : List Char} (plain : text.head? ≠ some '+')
    (n : Nat) :
    Denotes bound text n ↔ text ≠ [] ∧ Row bound text ∧ value text = n := by
  constructor
  · rintro ⟨digits, rfl | rfl, some, row, number⟩
    · exact ⟨some, row, number⟩
    · exact absurd rfl plain
  · rintro ⟨some, row, number⟩
    exact ⟨text, .inl rfl, some, row, number⟩

theorem not_stops_nil (bound : Nat) (reason : Refusal) : ¬ Stops bound [] reason := by
  rintro ⟨front, c, rest, same, -⟩
  simp at same

theorem fails_signed_iff (bound : Nat) (body : List Char) (reason : Refusal) :
    Fails bound ('+' :: body) reason ↔
      if body = [] then reason = .invalidDigit else Stops bound body reason := by
  constructor
  · intro fails
    cases fails with
    | signAlone => rfl
    | signed stops =>
      split
      next empty => exact absurd (empty ▸ stops) (not_stops_nil bound reason)
      next => exact stops
    | unsigned plain stops => exact absurd rfl plain
  · intro given
    split at given
    next empty =>
      subst empty given
      exact .signAlone
    next => exact .signed given

theorem fails_plain_iff (bound : Nat) {text : List Char} (plain : text.head? ≠ some '+')
    (reason : Refusal) :
    Fails bound text reason ↔ if text = [] then reason = .empty else Stops bound text reason := by
  constructor
  · intro fails
    cases fails with
    | empty => rfl
    | signAlone | signed stops => exact absurd rfl plain
    | unsigned plain stops =>
      split
      next empty => exact absurd (empty ▸ stops) (not_stops_nil bound reason)
      next => exact stops
  · intro given
    split at given
    next empty =>
      subst empty given
      exact .empty
    next => exact .unsigned plain given

/-- Exactly the numerals below the bound are read, each as the number that it denotes. -/
theorem read_eq_ok_iff {bound : Nat} (bounded : 0 < bound) (text : List Char) (n : Nat) :
    read bound text = .ok n ↔ Denotes bound text n := by
  by_cases plain : text.head? = some '+'
  · obtain ⟨body, rfl⟩ := List.head?_eq_some_iff.mp plain
    rw [read_signed, denotes_signed_iff]
    split
    next empty => simp [empty]
    next some => simp [some, readDigits_eq_ok_iff bounded]
  · rw [read_plain bound plain, denotes_plain_iff bound plain]
    split
    next empty => simp [empty]
    next some => simp [some, readDigits_eq_ok_iff bounded]

/-- Every other text is refused, for the reason that it fails for. -/
theorem read_eq_error_iff {bound : Nat} (bounded : 0 < bound) (text : List Char)
    (reason : Refusal) :
    read bound text = .error reason ↔ Fails bound text reason := by
  by_cases plain : text.head? = some '+'
  · obtain ⟨body, rfl⟩ := List.head?_eq_some_iff.mp plain
    rw [read_signed, fails_signed_iff]
    split
    next empty => simp [eq_comm]
    next some => exact readDigits_eq_error_iff bounded body reason
  · rw [read_plain bound plain, fails_plain_iff bound plain]
    split
    next empty => simp [eq_comm]
    next some => exact readDigits_eq_error_iff bounded text reason

end ChipEight.Text.Numeral
