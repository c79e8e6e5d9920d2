import ChipEight.Text.Character
import Mathlib.Data.List.TakeWhile
/-!
# What trimming leaves

`trim` drops white space from both ends. `Stripped` says what is left without saying how it is
found, and leaves no choice (`trim_eq_iff`).
-/
namespace ChipEight.Text

/-- The text is `core` between two runs of white space, and `core` has none of it at either end. -/
structure Stripped (text core : List Char) : Prop where
  between : ∃ before after, text = before ++ core ++ after ∧
    (∀ c ∈ before, isBlank c = true) ∧ ∀ c ∈ after, isBlank c = true
  first : ∀ c ∈ core.head?, isBlank c = false
  last : ∀ c ∈ core.getLast?, isBlank c = false

theorem head?_dropWhile_isBlank (text : List Char) :
    ∀ c ∈ (text.dropWhile isBlank).head?, isBlank c = false := by
  intro c first
  have found := List.head?_dropWhile_not isBlank text
  rw [Option.mem_def.mp first] at found
  simpa using found

theorem dropWhile_of_head? {text : List Char} (sharp : ∀ c ∈ text.head?, isBlank c = false) :
    text.dropWhile isBlank = text := by
  cases text with
  | nil => rfl
  | cons c rest => exact List.dropWhile_cons_of_neg (by simp [sharp c rfl])

theorem stripped_trim (text : List Char) : Stripped text (trim text) := by
  -- What is left after the front is dropped, and what is left of that after its end is dropped.
  let inner := text.dropWhile isBlank
  have front : text = text.takeWhile isBlank ++ inner := List.takeWhile_append_dropWhile.symm
  have back : inner = trim text ++ (inner.reverse.takeWhile isBlank).reverse := by
    rw [trim, ← List.reverse_append, List.takeWhile_append_dropWhile, List.reverse_reverse]
  constructor
  · refine ⟨text.takeWhile isBlank, (inner.reverse.takeWhile isBlank).reverse, ?_, ?_, ?_⟩
    · rw [List.append_assoc, ← back]
      exact front
    · intro c mem
      exact List.mem_takeWhile_imp mem
    · intro c mem
      exact List.mem_takeWhile_imp (List.mem_reverse.mp mem)
  · intro c first
    apply head?_dropWhile_isBlank text c
    change c ∈ inner.head?
    rw [back, List.head?_append, Option.mem_def.mp first]
    rfl
  · intro c last
    rw [trim, List.getLast?_reverse] at last
    exact head?_dropWhile_isBlank inner.reverse c last

theorem trim_of_stripped {text core : List Char} (stripped : Stripped text core) :
    trim text = core := by
  obtain ⟨⟨before, after, rfl, blank, blank'⟩, first, last⟩ := stripped
  have back : ∀ c ∈ after.reverse, isBlank c = true :=
    fun c mem => blank' c (List.mem_reverse.mp mem)
  rw [trim, List.append_assoc, List.dropWhile_append_of_pos blank]
  cases core with
  | nil =>
    rw [List.nil_append, List.dropWhile_eq_nil_iff.mpr blank']
    rfl
  | cons c rest =>
    have sharp : ∀ d ∈ (c :: rest).reverse.head?, isBlank d = false := by
      rwa [List.head?_reverse]
    have front : (c :: rest ++ after).dropWhile isBlank = c :: rest ++ after :=
      dropWhile_of_head? first
    rw [front, List.reverse_append, List.dropWhile_append_of_pos back, dropWhile_of_head? sharp,
      List.reverse_reverse]

/-- There is one way to strip a text. -/
theorem Stripped.unique {text core core' : List Char} (stripped : Stripped text core)
    (stripped' : Stripped text core') : core = core' :=
  (trim_of_stripped stripped).symm.trans (trim_of_stripped stripped')

theorem trim_eq_iff (text core : List Char) : trim text = core ↔ Stripped text core := by
  constructor
  · rintro rfl
    exact stripped_trim text
  · exact trim_of_stripped

end ChipEight.Text
