import ChipEight.Proofs.Machine.Change
/-!
# Opcodes in a row

Looking at opcodes from an address on goes up by two bytes each time and ends with memory, so the
addresses never go round the end of their range: the address after the last opcode would lie behind
memory, where there is nothing to look at.
-/
namespace ChipEight.Machine

theorem toNat_next {m : Machine} {a : UInt16} {op : Opcode} (found : m.peek a = some op) :
    (a + 2).toNat = a.toNat + 2 := by
  have inside := lt_of_peek found
  rw [UInt16.toNat_add]
  change (a.toNat + 2) % 65536 = a.toNat + 2
  omega

theorem length_opcodesFrom (m : Machine) (a : UInt16) (count : Nat) :
    (m.opcodesFrom a count).length = min count ((4096 - a.toNat) / 2) := by
  induction count generalizing a with
  | zero => exact (Nat.zero_min _).symm
  | succ count ih =>
    rw [opcodesFrom]
    cases found : m.peek a with
    | none =>
      have outside := (peek_eq_none_iff m a).mp found
      simp only [List.length_nil]
      omega
    | some op =>
      have inside := lt_of_peek found
      rw [List.length_cons, ih, toNat_next found]
      omega

/-- The `j`-th opcode lies `2 * j` bytes behind the first, inside memory. -/
theorem getElem_opcodesFrom (m : Machine) (a : UInt16) (count : Nat) {j : Nat}
    (within : j < (m.opcodesFrom a count).length) :
    (m.opcodesFrom a count)[j].1.toNat = a.toNat + 2 * j ∧
    m.peek (m.opcodesFrom a count)[j].1 = some (m.opcodesFrom a count)[j].2 := by
  induction count generalizing a j with
  | zero => cases within
  | succ count ih =>
    revert within
    rw [opcodesFrom]
    cases found : m.peek a with
    | none => exact nofun
    | some op =>
      intro within
      cases j with
      | zero => exact ⟨rfl, found⟩
      | succ j =>
        obtain ⟨place, here⟩ := ih (a + 2) (Nat.lt_of_succ_lt_succ within)
        rw [toNat_next found] at place
        exact ⟨by rw [List.getElem_cons_succ]; omega, here⟩

end ChipEight.Machine
