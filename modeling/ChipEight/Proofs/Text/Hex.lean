import ChipEight.Text.Hex
import Mathlib.Tactic.IntervalCases
/-!
# Hexadecimal text read back

Whatever width a number is filled up to, its digits mean that number (`read?_padded`), so texts of two
numbers differ; and a number that fits the width takes up just that.
-/
namespace ChipEight.Text.Hex

theorem value?_digit {n : Nat} (small : n < 16) : value? (digit n) = some n := by
  interval_cases n <;> decide

theorem read?_append_digit (front : List Char) (c : Char) :
    read? (front ++ [c]) = (read? front).bind fun acc => (value? c).map (acc * 16 + ·) := by
  rw [read?, List.foldlM_append]
  simp only [List.foldlM_cons, List.foldlM_nil, bind_pure]
  rfl

theorem read?_digits (n : Nat) : read? (digits n) = some n := by
  induction n using Nat.strongRecOn with
  | ind n ih =>
    rw [digits]
    split
    next small => simp [read?, value?_digit small]
    next large =>
      rw [read?_append_digit, ih (n / 16) (by omega), value?_digit (Nat.mod_lt n (by decide))]
      simp only [Option.bind_some, Option.map_some, Option.some.injEq]
      omega

/-- Leading zeros mean nothing. -/
theorem read?_zeros (count : Nat) (text : List Char) :
    read? (List.replicate count '0' ++ text) = read? text := by
  induction count with
  | zero => rfl
  | succ count ih =>
    rw [← ih]
    rfl

theorem read?_padded (width n : Nat) : read? (padded width n).toList = some n := by
  rw [padded, String.toList_ofList, List.leftpad, read?_zeros, read?_digits]

theorem padded_inj {width m n : Nat} (same : padded width m = padded width n) : m = n := by
  have read := read?_padded width m
  rw [same, read?_padded] at read
  exact (Option.some.inj read).symm

theorem padded_one {n : Nat} (small : n < 16) : (padded 1 n).toList = [digit n] := by
  rw [padded, String.toList_ofList, digits, if_pos small]
  rfl

/-! ## Digits only -/

/-- The digits lie between `0` and `F`. -/
theorem range_of_value? {c : Char} (found : value? c ≠ none) : 48 ≤ c.toNat ∧ c.toNat ≤ 70 := by
  have bounds {a b : Char} (inside : a ≤ c ∧ c ≤ b) : a.toNat ≤ c.toNat ∧ c.toNat ≤ b.toNat :=
    ⟨UInt32.le_iff_toNat_le.mp inside.1, UInt32.le_iff_toNat_le.mp inside.2⟩
  unfold value? at found
  split at found
  next low => exact ⟨(bounds low).1, Nat.le_trans (bounds low).2 (by decide)⟩
  next =>
    split at found
    next high => exact ⟨Nat.le_trans (by decide) (bounds high).1, (bounds high).2⟩
    next => exact absurd rfl found

theorem value?_ne_none_of_read? {text : List Char} {n : Nat} (found : read? text = some n) :
    ∀ c ∈ text, value? c ≠ none := by
  unfold read? at found
  generalize 0 = acc at found
  induction text generalizing acc with
  | nil => exact nofun
  | cons d text ih =>
    intro c among none
    rw [List.foldlM_cons] at found
    cases first : value? d with
    | none =>
      rw [first] at found
      cases found
    | some v =>
      rw [first] at found
      rcases List.mem_cons.mp among with rfl | later
      · cases none.symm.trans first
      · exact ih _ found c later none

theorem value?_ne_none_of_mem_padded {width n : Nat} {c : Char}
    (among : c ∈ (padded width n).toList) : value? c ≠ none :=
  value?_ne_none_of_read? (read?_padded width n) c among

/-- A character that is no digit is in no number. -/
theorem notMem_padded {c : Char} (other : value? c = none) (width n : Nat) :
    c ∉ (padded width n).toList :=
  fun among => value?_ne_none_of_mem_padded among other

/-! ## Width -/

theorem digits_ne_nil (n : Nat) : digits n ≠ [] := by
  rw [digits]
  split <;> simp

theorem padded_ne_nil (width n : Nat) : (padded width n).toList ≠ [] := by
  rw [padded, String.toList_ofList, List.leftpad]
  exact List.append_ne_nil_of_right_ne_nil _ (digits_ne_nil n)

theorem length_digits_le {width n : Nat} (fits : n < 16 ^ (width + 1)) :
    (digits n).length ≤ width + 1 := by
  induction width generalizing n with
  | zero =>
    rw [digits, if_pos (by omega)]
    exact Nat.le_refl 1
  | succ width ih =>
    rw [digits]
    split
    next => exact Nat.le_add_left 1 _
    next =>
      rw [List.length_append, List.length_singleton]
      exact Nat.succ_le_succ (ih (by omega))

theorem length_padded {width n : Nat} (fits : n < 16 ^ (width + 1)) :
    (padded (width + 1) n).toList.length = width + 1 := by
  rw [padded, String.toList_ofList, List.length_leftpad]
  exact Nat.max_eq_left (length_digits_le fits)

/-- A marked number that fits the width is the mark and that many digits. -/
theorem exists_toList_marked {width n : Nat} (fits : n < 16 ^ (width + 1)) :
    ∃ text, (marked (width + 1) n).toList = '0' :: 'x' :: text ∧ text.length = width + 1 ∧
      read? text = some n := by
  refine ⟨(padded (width + 1) n).toList, ?_, length_padded fits, read?_padded _ n⟩
  rw [marked, String.toList_append]
  rfl

end ChipEight.Text.Hex
