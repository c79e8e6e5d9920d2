import ChipEight.Proofs.Text.Hex
import ChipEight.Text.Character
/-!
# Texts in parts

A text written as parts with something between or behind them can be taken apart again if the parts
leave alone what tells them apart: lines that hold no line end (`lines_join`), and non-empty parts
without the character that starts a separator (`intercalate_inj`).
-/
namespace ChipEight.Text

/-! ## Separators -/

section Cut

variable {α : Type} [BEq α] [LawfulBEq α] {c : α} {x y behind behind' : List α}

theorem forall_bne_of_notMem (outside : c ∉ x) : ∀ d ∈ x, (d != c) = true := by
  intro d among
  rw [bne_iff_ne]
  rintro rfl
  exact outside among

/-- A part ends where what is behind it starts with something that the part does not hold. -/
theorem takeWhile_part (outside : c ∉ x) (starts : ∀ d ∈ behind.head?, d = c) :
    (x ++ behind).takeWhile (· != c) = x := by
  rw [List.takeWhile_append_of_pos (forall_bne_of_notMem outside)]
  cases behind with
  | nil => exact List.append_nil x
  | cons d behind =>
    obtain rfl : d = c := starts d rfl
    rw [List.takeWhile_cons_of_neg (by simp), List.append_nil]

theorem dropWhile_part (outside : c ∉ x) (behind : List α) :
    (x ++ c :: behind).dropWhile (· != c) = c :: behind := by
  rw [List.dropWhile_append_of_pos (forall_bne_of_notMem outside),
    List.dropWhile_cons_of_neg (by simp)]

theorem append_inj_of_starts (outside : c ∉ x) (outside' : c ∉ y)
    (starts : ∀ d ∈ behind.head?, d = c) (starts' : ∀ d ∈ behind'.head?, d = c)
    (same : x ++ behind = y ++ behind') : x = y ∧ behind = behind' := by
  obtain rfl : x = y := by
    rw [← takeWhile_part outside starts, same, takeWhile_part outside' starts']
  exact ⟨rfl, List.append_cancel_left same⟩

end Cut

section Separated

variable {c : Char} {sep : List Char}

theorem intercalate_cons_eq (x : List Char) (rest : List (List Char)) :
    sep.intercalate (x :: rest) = x ++ rest.flatMap (sep ++ ·) := by
  induction rest generalizing x with
  | nil => rw [List.intercalate_singleton, List.flatMap_nil, List.append_nil]
  | cons y rest ih => rw [List.intercalate_cons_cons, ih, List.flatMap_cons, ← List.append_assoc,
      ← List.append_assoc, ← List.append_assoc]

theorem mem_intercalate {xs : List (List Char)} {d : Char} (among : d ∈ sep.intercalate xs) :
    d ∈ sep ∨ ∃ x ∈ xs, d ∈ x := by
  cases xs with
  | nil => cases among
  | cons x xs =>
    rw [intercalate_cons_eq] at among
    rcases List.mem_append.mp among with first | later
    · exact .inr ⟨x, List.mem_cons_self, first⟩
    · obtain ⟨y, behind, inside⟩ := List.mem_flatMap.mp later
      rcases List.mem_append.mp inside with between | part
      · exact .inl between
      · exact .inr ⟨y, List.mem_cons_of_mem x behind, part⟩

theorem starts_separated (xs : List (List Char)) :
    ∀ d ∈ (xs.flatMap (c :: sep ++ ·)).head?, d = c := by
  intro d first
  cases xs with
  | nil => cases first
  | cons x xs => exact (Option.some.inj first).symm

theorem separated_inj {xs ys : List (List Char)} (sound : ∀ x ∈ xs, c ∉ x)
    (sound' : ∀ y ∈ ys, c ∉ y)
    (same : xs.flatMap (c :: sep ++ ·) = ys.flatMap (c :: sep ++ ·)) : xs = ys := by
  induction xs generalizing ys with
  | nil =>
    cases ys with
    | nil => rfl
    | cons y ys => cases same
  | cons x xs ih =>
    cases ys with
    | nil => cases same
    | cons y ys =>
      simp only [List.flatMap_cons, List.cons_append, List.append_assoc, List.cons.injEq, true_and,
        List.append_cancel_left_eq] at same
      obtain ⟨rfl, rest⟩ := append_inj_of_starts (sound x List.mem_cons_self)
        (sound' y List.mem_cons_self) (starts_separated xs) (starts_separated ys) same
      rw [ih (fun z among => sound z (List.mem_cons_of_mem x among))
        (fun z among => sound' z (List.mem_cons_of_mem x among)) rest]

/-- Non-empty parts that do not hold the first character of what is between them are told apart. -/
theorem intercalate_inj {xs ys : List (List Char)} (sound : ∀ x ∈ xs, x ≠ [] ∧ c ∉ x)
    (sound' : ∀ y ∈ ys, y ≠ [] ∧ c ∉ y)
    (same : (c :: sep).intercalate xs = (c :: sep).intercalate ys) : xs = ys := by
  have bare : (c :: sep).intercalate [] = [] := rfl
  rcases xs with - | ⟨x, xs⟩ <;> rcases ys with - | ⟨y, ys⟩
  · rfl
  · rw [bare, intercalate_cons_eq] at same
    exact absurd (List.append_eq_nil_iff.mp same.symm).1 (sound' y List.mem_cons_self).1
  · rw [bare, intercalate_cons_eq] at same
    exact absurd (List.append_eq_nil_iff.mp same).1 (sound x List.mem_cons_self).1
  · rw [intercalate_cons_eq, intercalate_cons_eq] at same
    obtain ⟨rfl, rest⟩ := append_inj_of_starts (sound x List.mem_cons_self).2
      (sound' y List.mem_cons_self).2 (starts_separated xs) (starts_separated ys) same
    rw [separated_inj (fun z among => (sound z (List.mem_cons_of_mem x among)).2)
      (fun z among => (sound' z (List.mem_cons_of_mem x among)).2) rest]

/-- A text that can stand between separators which start with `c`. -/
def IsPart (c : Char) (s : String) : Prop := s.toList ≠ [] ∧ c ∉ s.toList

/-- Parts can be told from the text with separators between them. -/
theorem parts_inj {between : String} (starts : between.toList = c :: sep) {xs ys : List String}
    (sound : ∀ x ∈ xs, IsPart c x) (sound' : ∀ y ∈ ys, IsPart c y)
    (same : between.intercalate xs = between.intercalate ys) : xs = ys := by
  have each {xs : List String} (sound : ∀ x ∈ xs, IsPart c x) :
      ∀ x ∈ xs.map String.toList, x ≠ [] ∧ c ∉ x := by
    intro x part
    obtain ⟨s, here, rfl⟩ := List.mem_map.mp part
    exact sound s here
  have same := congrArg String.toList same
  rw [String.toList_intercalate, String.toList_intercalate, starts] at same
  have parts := intercalate_inj (each sound) (each sound') same
  exact (List.map_inj_right fun _ _ => String.toList_injective).mp parts

end Separated

/-! ## Lines -/

/-- The text holds no line end. -/
def OnOneLine (s : String) : Prop := '\n' ∉ s.toList

instance (s : String) : Decidable (OnOneLine s) := inferInstanceAs (Decidable (_ ∉ _))

/-- A literal is one of its characters, which are looked at without its bytes being decoded. -/
theorem onOneLine_ofList {cs : List Char} (among : '\n' ∉ cs) : OnOneLine (String.ofList cs) := by
  rwa [OnOneLine, String.toList_ofList]

@[simp] theorem onOneLine_append (s t : String) :
    OnOneLine (s ++ t) ↔ OnOneLine s ∧ OnOneLine t := by
  rw [OnOneLine, String.toList_append, List.mem_append, not_or]
  rfl

theorem onOneLine_intercalate {sep : String} {parts : List String} (between : OnOneLine sep)
    (each : ∀ s ∈ parts, OnOneLine s) : OnOneLine (sep.intercalate parts) := by
  intro among
  rw [String.toList_intercalate] at among
  rcases mem_intercalate among with separator | ⟨x, part, inside⟩
  · exact between separator
  · obtain ⟨s, here, rfl⟩ := List.mem_map.mp part
    exact each s here inside

@[simp] theorem onOneLine_padded (width n : Nat) : OnOneLine (Hex.padded width n) :=
  Hex.notMem_padded (by decide) width n

@[simp] theorem onOneLine_padRight (width : Nat) (s : String) :
    OnOneLine (padRight width s) ↔ OnOneLine s := by
  simp [OnOneLine, padRight, List.rightpad]

/-- The lines of a text, without their line ends. What follows the last line end is no line. -/
def lines (text : List Char) : List (List Char) := (text.splitOn '\n').dropLast

theorem lines_ended {ls : List (List Char)} (sound : ∀ l ∈ ls, '\n' ∉ l) :
    lines (ls.flatMap (· ++ ['\n'])) = ls := by
  have parted : ls.flatMap (· ++ ['\n']) = ['\n'].intercalate (ls ++ [[]]) := by
    clear sound
    induction ls with
    | nil => rfl
    | cons l ls ih =>
      rw [List.flatMap_cons, ih, List.cons_append]
      cases ls <;> simp [List.intercalate_cons_cons]
  rw [lines, parted, List.splitOn_intercalate, List.dropLast_concat]
  · intro l among
    rcases List.mem_append.mp among with here | last
    · exact sound l here
    · exact List.mem_singleton.mp last ▸ List.not_mem_nil
  · exact List.append_ne_nil_of_right_ne_nil ls (List.cons_ne_nil _ _)

theorem toList_join_ended (ls : List String) :
    (String.join (ls.map (· ++ "\n"))).toList = (ls.map String.toList).flatMap (· ++ ['\n']) := by
  rw [String.toList_join, List.flatMap_map, List.flatMap_map]
  exact congrArg (ls.flatMap ·) (funext fun _ => String.toList_append)

/-- Lines put under each other are found again. -/
theorem lines_join {ls : List String} (sound : ∀ l ∈ ls, OnOneLine l) :
    lines (String.join (ls.map (· ++ "\n"))).toList = ls.map String.toList := by
  rw [toList_join_ended, lines_ended]
  intro l among
  obtain ⟨s, here, rfl⟩ := List.mem_map.mp among
  exact sound s here

end ChipEight.Text
