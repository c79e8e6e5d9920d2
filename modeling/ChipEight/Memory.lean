import ChipEight.Font
/-!
# Memory

The 4096 bytes that a program sees (the specification, §3). Reading and writing take any 16-bit address
and wrap it; only `word?`, which opcodes are fetched by, refuses to run past the end. A program is put in
by `replace` (§10.4), and `replace_eq` tells the bytes and the count that come of it without the copying.
-/
namespace ChipEight

/-- The entries from the place `first` on replaced, one after the other, by the first `count` values. A
value for a place beyond the end is lost. -/
def fill {α : Type} {size : Nat} (entries : Vector α size) (first : Nat) (value : Nat → α) :
    Nat → Vector α size
  | 0 => entries
  | count + 1 => (fill entries first value count).setIfInBounds (first + count) (value count)

theorem getElem_fill {α : Type} {size : Nat} (entries : Vector α size) (first : Nat)
    (value : Nat → α) (count : Nat) {i : Nat} (inside : i < size) :
    (fill entries first value count)[i] =
      if first ≤ i ∧ i < first + count then value (i - first) else entries[i] := by
  induction count with
  | zero => rw [fill, if_neg (by omega)]
  | succ count ih =>
    rw [fill, Vector.getElem_setIfInBounds, ih]
    by_cases last : first + count = i
    · rw [if_pos last, if_pos (by omega), ← last, Nat.add_sub_cancel_left]
    · have range : (first ≤ i ∧ i < first + (count + 1)) ↔ (first ≤ i ∧ i < first + count) := by
        omega
      simp only [if_neg last, range]

structure Memory where
  bytes : Vector UInt8 4096
  deriving DecidableEq

namespace Memory

def size : Nat := 4096

/-- Zero everywhere but for the font. -/
def initial : Memory :=
  ⟨Vector.ofFn fun a => if a.val < Font.start then 0 else Font.glyphs.getD (a.val - Font.start) 0⟩

def read (m : Memory) (a : UInt16) : UInt8 := m.bytes[Address.wrap a]

def write (m : Memory) (a : UInt16) (b : UInt8) : Memory :=
  ⟨m.bytes.set (Address.wrap a) b⟩

/-- The `count` bytes from `a` on. -/
def readMany (m : Memory) (a : UInt16) : Nat → List UInt8
  | 0 => []
  | count + 1 => m.read a :: m.readMany (a + 1) count

/-- Writes bytes one after the other from `a` on. -/
def writeMany (m : Memory) (a : UInt16) : List UInt8 → Memory
  | [] => m
  | b :: rest => (m.write a b).writeMany (a + 1) rest

/-- The opcode at `a`, unless it runs past the end of memory. -/
def word? (m : Memory) (a : UInt16) : Option Opcode :=
  if h : a.toNat + 1 < 4096 then
    have : a.toNat < 4096 := Nat.lt_of_succ_lt h
    some (.ofBytes m.bytes[a.toNat] m.bytes[a.toNat + 1])
  else none

/-- Copies as much of `data` as fits to the places from `start` on, clears what is left behind it, and
gives the number of bytes copied. A start beyond the end leaves no room. -/
def replace (m : Memory) (start : UInt16) (data : Array UInt8) : Memory × Nat :=
  let first := min start.toNat size
  let room := size - first
  let count := min data.size room
  let copied := fill m.bytes first (data.getD · 0) count
  (⟨fill copied (first + count) (fun _ => 0) (room - count)⟩, count)

/-- How many of `count` bytes fit into memory from `a` on. -/
def fitting (a : UInt16) (count : Nat) : Nat := min count (size - a.toNat)

/-- The bytes before `start`, and behind them `data`, cut or filled up with zeros to the end. -/
def load (m : Memory) (start : UInt16) (data : Array UInt8) : Memory :=
  ⟨Vector.ofFn fun a =>
    if a.val < start.toNat then m.bytes[a] else data.getD (a.val - start.toNat) 0⟩

/-- At most `count` bytes from the place `start` on, without wrapping. -/
def slice (m : Memory) (start count : Nat) : List UInt8 :=
  (m.bytes.toList.drop start).take count

/-- What is copied and what is cleared make up the rest of memory. -/
theorem replace_eq (m : Memory) (start : UInt16) (data : Array UInt8) :
    m.replace start data = (m.load start data, fitting start data.size) := by
  have room : size - min start.toNat size = size - start.toNat := by omega
  simp only [replace, room, Prod.mk.injEq]
  refine ⟨congrArg Memory.mk (Vector.ext fun i inside => ?_), rfl⟩
  have bound : i < size := inside
  rw [getElem_fill, getElem_fill, Vector.getElem_ofFn]
  by_cases before : i < start.toNat
  · rw [if_neg (by omega), if_neg (by omega), if_pos before]
    rfl
  · have first : min start.toNat size = start.toNat := by omega
    rw [first, if_neg before, Array.getD_eq_getD_getElem?]
    by_cases copied : i < start.toNat + min data.size (size - start.toNat)
    · rw [if_neg (by omega), if_pos (by omega)]
    · rw [if_pos (by omega), Array.getElem?_eq_none (by omega), Option.getD_none]

/-- Behind the start of what was loaded, opcodes are made of its bytes, with zeros after the last. -/
theorem word?_load (m : Memory) (data : Array UInt8) {start a : UInt16}
    (behind : start.toNat ≤ a.toNat) (inside : a.toNat + 1 < 4096) :
    (m.load start data).word? a = some (.ofBytes (data.getD (a.toNat - start.toNat) 0)
      (data.getD (a.toNat + 1 - start.toNat) 0)) := by
  have high : ¬ a.toNat < start.toNat := Nat.not_lt.mpr behind
  have low : ¬ a.toNat + 1 < start.toNat := by omega
  simp only [word?, inside, dif_pos, load, Vector.getElem_ofFn, high, low, if_false]

end Memory

/-- A program as it is kept in a file: its bytes and nothing else. -/
structure Rom where
  bytes : Array UInt8
  deriving DecidableEq, Repr

namespace Rom

/-- Where a program is put in memory, and where it starts. -/
def start : UInt16 := 0x200

def size (r : Rom) : Nat := r.bytes.size

def isEmpty (r : Rom) : Bool := r.bytes.isEmpty

end Rom

end ChipEight
