import ChipEight.Proofs.Machine.Change
/-!
# What is kept

A machine keeps states and opcodes in rows that give up their oldest entry once they are at their bound.
On a row that has not outgrown its bound, this comes to cutting the longer row (`save_eq_take`,
`push_eq_take`), and no row outgrows it, whatever is done to a machine (`Bounded.change`).
-/
namespace ChipEight.Machine

section Rows

variable {α β : Type} {bound : Nat} {kept : List α}

theorem push_eq_take (room : 0 < bound) (bounded : kept.length ≤ bound) (a : α) :
    push bound a kept = (a :: kept).take bound := by
  obtain ⟨rest, rfl⟩ : ∃ rest, bound = rest + 1 := ⟨bound - 1, by omega⟩
  rw [push, List.take_succ_cons]
  split
  next full => rw [List.dropLast_eq_take, full, Nat.add_sub_cancel]
  next free => rw [List.take_of_length_le (by omega)]

theorem save_eq_take (bounded : kept.length ≤ bound) (a : α) :
    save bound a kept = (a :: kept).take bound := by
  unfold save
  split
  next room => exact push_eq_take room bounded a
  next none =>
    obtain rfl : bound = 0 := by omega
    exact List.length_eq_zero_iff.mp (Nat.le_zero.mp bounded)

theorem mem_of_mem_push {a b : α} (mem : b ∈ push bound a kept) : b = a ∨ b ∈ kept := by
  refine (List.mem_cons.mp mem).imp_right fun among => ?_
  split at among
  · exact (List.dropLast_subset kept) among
  · exact among

theorem mem_of_mem_save {a b : α} (mem : b ∈ save bound a kept) : b = a ∨ b ∈ kept := by
  unfold save at mem
  split at mem
  · exact mem_of_mem_push mem
  · exact Or.inr mem

theorem length_save_le (bound : Nat) (a : α) (kept : List α) :
    (save bound a kept).length ≤ kept.length + 1 := by
  unfold save push
  split
  · rw [List.length_cons, Nat.add_le_add_iff_right]
    split
    · exact (List.dropLast_sublist kept).length_le
    · exact Nat.le_refl _
  · exact Nat.le_succ _

theorem map_push (f : α → β) (a : α) :
    (push bound a kept).map f = push bound (f a) (kept.map f) := by
  rw [push, push, List.map_cons, List.length_map, apply_ite (List.map f), List.map_dropLast]

theorem map_save (f : α → β) (a : α) :
    (save bound a kept).map f = save bound (f a) (kept.map f) := by
  rw [save, save, apply_ite (List.map f), map_push]

end Rows

/-- Neither of the rows that a machine keeps has outgrown its bound. -/
structure Bounded (m : Machine) : Prop where
  history : m.history.length ≤ m.config.historyLimit
  past : m.past.length ≤ pastLimit

theorem Bounded.change {m after : Machine} {op : Operation} (change : Change m op after)
    (here : Bounded m) : Bounded after := by
  cases change with
  | load rom memory => exact ⟨Nat.zero_le _, Nat.zero_le _⟩
  | stepped fetched carried result =>
    constructor
    · rw [remember, save_eq_take here.history]
      exact List.length_take_le _ _
    · rw [remember, push_eq_take (by decide) here.past]
      exact List.length_take_le _ _
  | rewound history =>
    obtain ⟨bounded, past⟩ := here
    rw [history] at bounded
    constructor
    · exact Nat.le_of_succ_le bounded
    · exact Nat.le_trans (List.tail_sublist m.past).length_le past
  | _ => exact ⟨here.history, here.past⟩

end ChipEight.Machine
