import ChipEight.Memory
/-!
# Memory in a row

What reading and writing several bytes comes to, byte by byte: memory goes round its end, and so
does the address that it is read and written by, whose range is a multiple of the size of memory. A
row of writes leaves each byte where it was written as long as it is no longer than memory
(`overwritten_writeMany`). Loading does not go round the end; it cuts what does not fit and clears
what is left (`filled_load`).
-/
namespace ChipEight.Memory

/-- The byte at a place counted from the start of memory, round its end. -/
def byteAt (m : Memory) (place : Nat) : UInt8 := m.bytes[Fin.ofNat 4096 place]

theorem read_eq_byteAt (m : Memory) (a : UInt16) : m.read a = m.byteAt a.toNat := rfl

/-- Places a whole number of memories apart are the same. -/
theorem byteAt_congr (m : Memory) {j k : Nat} (same : j % 4096 = k % 4096) :
    m.byteAt j = m.byteAt k := by
  have place : Fin.ofNat 4096 j = Fin.ofNat 4096 k := Fin.ext same
  exact congrArg (fun a : Address => m.bytes[a]) place

theorem byteAt_val (m : Memory) (place : Address) : m.byteAt place.val = m.bytes[place] := by
  have found : Fin.ofNat 4096 place.val = place := Fin.ext (Nat.mod_eq_of_lt place.isLt)
  exact congrArg (fun a : Address => m.bytes[a]) found

theorem ext_bytes {m n : Memory}
    (same : ∀ place : Address, m.byteAt place.val = n.byteAt place.val) : m = n := by
  simp only [byteAt_val] at same
  cases m
  cases n
  exact congrArg Memory.mk (Vector.ext fun place inside => same ⟨place, inside⟩)

/-- An address that runs past the end of its own range goes round memory all the same. -/
theorem read_add (m : Memory) (a : UInt16) (k : Nat) :
    m.read (a + UInt16.ofNat k) = m.byteAt (a.toNat + k) := by
  rw [read_eq_byteAt]
  apply byteAt_congr
  rw [UInt16.toNat_add, UInt16.toNat_ofNat']
  omega

/-- The bytes from an address on lie at the places behind it. -/
theorem readMany_eq_map (m : Memory) (a : UInt16) (count : Nat) :
    m.readMany a count = (List.range count).map fun k => m.byteAt (a.toNat + k) := by
  induction count generalizing a with
  | zero => rfl
  | succ count ih =>
    have next : (a + 1).toNat = (a.toNat + 1) % 65536 := UInt16.toNat_add a 1
    have behind (k : Nat) : m.byteAt ((a + 1).toNat + k) = m.byteAt (a.toNat + (k + 1)) :=
      byteAt_congr m (by omega)
    rw [readMany, ih, List.range_succ_eq_map, List.map_cons, List.map_map, read_eq_byteAt]
    simp only [behind]
    rfl

theorem readMany_getD (m : Memory) (a : UInt16) (count k : Nat) :
    (m.readMany a count).getD k 0 = if k < count then m.byteAt (a.toNat + k) else 0 := by
  rw [readMany_eq_map]
  split
  next within => simp [within]
  next beyond => simp [beyond]

/-! ## Bytes written in a row -/

/-- The memory `after` has the bytes `data` at the places from `start` on, taken round the end of
memory, and is like `m` everywhere else. -/
structure Overwritten (m : Memory) (start : Nat) (data : List UInt8) (after : Memory) : Prop where
  within (k : Nat) (inside : k < data.length) : after.byteAt (start + k) = data[k]
  elsewhere (place : Address) (outside : ∀ k < data.length, place.val ≠ (start + k) % 4096) :
    after.byteAt place.val = m.byteAt place.val

theorem byteAt_write (m : Memory) (a : UInt16) (b : UInt8) : (m.write a b).byteAt a.toNat = b :=
  Vector.getElem_set_self _

theorem byteAt_write_of_ne (m : Memory) {a : UInt16} {place : Address}
    (other : place.val ≠ a.toNat % 4096) (b : UInt8) :
    (m.write a b).byteAt place.val = m.byteAt place.val := by
  rw [byteAt_val, byteAt_val]
  exact Vector.getElem_set_ne (Address.wrap a).isLt place.isLt fun same => other same.symm

/-- Bytes written one after the other do not overwrite each other, unless they go round more than
the whole of memory. -/
theorem overwritten_writeMany (m : Memory) (a : UInt16) {data : List UInt8}
    (short : data.length ≤ 4096) : m.Overwritten a.toNat data (m.writeMany a data) := by
  induction data generalizing m a with
  | nil => exact ⟨nofun, fun place outside => rfl⟩
  | cons b rest ih =>
    rw [List.length_cons] at short
    have next : (a + 1).toNat = (a.toNat + 1) % 65536 := UInt16.toNat_add a 1
    obtain ⟨within, elsewhere⟩ := ih (m.write a b) (a + 1) (Nat.le_of_succ_le short)
    constructor
    · intro k inside
      cases k with
      | zero =>
        have here (n : Memory) : n.byteAt (Address.wrap a).val = n.byteAt a.toNat :=
          byteAt_congr n (Nat.mod_mod a.toNat 4096)
        have kept := elsewhere (Address.wrap a) fun k inside same => by
          change a.toNat % 4096 = _ at same
          omega
        rw [here, here, byteAt_write] at kept
        exact kept
      | succ k =>
        rw [List.getElem_cons_succ, ← within k (Nat.lt_of_succ_lt_succ inside)]
        exact byteAt_congr _ (by omega)
    · intro place outside
      rw [writeMany, elsewhere]
      · exact byteAt_write_of_ne m (outside 0 (Nat.succ_pos _)) b
      · intro k inside
        have := outside (k + 1) (Nat.succ_lt_succ inside)
        omega

/-- What is written and where determines the memory afterwards. -/
theorem Overwritten.unique {m after other : Memory} {start : Nat} {data : List UInt8}
    (here : m.Overwritten start data after) (there : m.Overwritten start data other) :
    after = other := by
  apply ext_bytes
  intro place
  by_cases written : ∃ k < data.length, place.val = (start + k) % 4096
  · obtain ⟨k, inside, same⟩ := written
    have found (n : Memory) : n.byteAt place.val = n.byteAt (start + k) :=
      byteAt_congr n (by omega)
    rw [found, found, here.within k inside, there.within k inside]
  · have outside : ∀ k < data.length, place.val ≠ (start + k) % 4096 :=
      fun k inside same => written ⟨k, inside, same⟩
    rw [here.elsewhere place outside, there.elsewhere place outside]

/-- Writing what is there already changes nothing. -/
theorem writeMany_same {m : Memory} {a : UInt16} {data : List UInt8} (short : data.length ≤ 4096)
    (there : ∀ (k : Nat) (inside : k < data.length), m.byteAt (a.toNat + k) = data[k]) :
    m.writeMany a data = m :=
  (overwritten_writeMany m a short).unique ⟨there, fun _ _ => rfl⟩

/-! ## Loading -/

theorem byteAt_load (m : Memory) (start : UInt16) (data : Array UInt8) (place : Address) :
    (m.load start data).byteAt place.val =
      if place.val < start.toNat then m.byteAt place.val
      else data.getD (place.val - start.toNat) 0 := by
  rw [byteAt_val, byteAt_val]
  simp only [load, Fin.getElem_fin, Vector.getElem_ofFn]

/-- The memory `after` has the first `count` bytes of `data` from `start` on and nothing but zeros
behind them, and is like `m` before them. -/
structure Filled (m : Memory) (start : Nat) (data : Array UInt8) (count : Nat) (after : Memory) :
    Prop where
  before (place : Address) (low : place.val < start) :
    after.byteAt place.val = m.byteAt place.val
  copied (k : Nat) (within : k < count) :
    start + k < 4096 ∧ data[k]? = some (after.byteAt (start + k))
  cleared (place : Address) (behind : start + count ≤ place.val) : after.byteAt place.val = 0

/-- Loading fills memory with as much of the data as fits. -/
theorem filled_load (m : Memory) (start : UInt16) (data : Array UInt8) :
    m.Filled start.toNat data (fitting start data.size) (m.load start data) := by
  constructor
  · intro place low
    rw [byteAt_load, if_pos low]
  · intro k within
    have few : k < data.size := Nat.lt_of_lt_of_le within (Nat.min_le_left _ _)
    have inside : start.toNat + k < 4096 := by
      simp only [fitting, size] at within
      omega
    have loaded := byteAt_load m start data ⟨start.toNat + k, inside⟩
    rw [if_neg (by simp), Nat.add_sub_cancel_left, Array.getD_eq_getD_getElem?,
      Array.getElem?_eq_getElem few] at loaded
    refine ⟨inside, ?_⟩
    rw [Array.getElem?_eq_getElem few, loaded]
    rfl
  · intro place behind
    have := place.isLt
    simp only [fitting, size] at behind
    rw [byteAt_load, if_neg (by omega), Array.getD_eq_getD_getElem?,
      Array.getElem?_eq_none (by omega)]
    rfl

/-- Behind the end of memory there is nothing to fill. -/
theorem load_of_outside (m : Memory) {start : UInt16} (outside : 4096 ≤ start.toNat)
    (data : Array UInt8) : m.load start data = m := by
  apply ext_bytes
  intro place
  rw [byteAt_load, if_pos (Nat.lt_of_lt_of_le place.isLt outside)]

end ChipEight.Memory
