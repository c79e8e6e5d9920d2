import ChipEight.Proofs.Instruction.Assembly
import ChipEight.Proofs.Machine.Lookahead
import ChipEight.Report.Listing
/-!
# Listings read back

A listing has a line for each opcode of the program, in columns of fixed width. Its assembly column
alone is enough to build the program again (`reassemble?_listing`).
-/
namespace ChipEight

open Text

/-- The two bytes of an opcode, the high one first. -/
def Opcode.bytes (op : Opcode) : List UInt8 := [UInt8.ofNat (op.toNat / 256), op.nn]

theorem Opcode.bytes_ofBytes (high low : UInt8) : (ofBytes high low).bytes = [high, low] := by
  have := high.toNat_lt
  have := low.toNat_lt
  have word : (ofBytes high low).toNat = high.toNat * 256 + low.toNat := by
    rw [ofBytes, UInt16.toNat_ofNat']
    omega
  simp only [bytes, nn, word, List.cons.injEq, and_true, ← UInt8.toNat_inj, UInt8.toNat_ofNat']
  omega

namespace Report.Listing

/-! ## Columns -/

def addressColumn (line : List Char) : List Char := line.take 3

def opcodeColumn (line : List Char) : List Char := (line.drop 5).take 4

/-- The assembly text, without the blanks that fill its column up. -/
def assemblyColumn (line : List Char) : List Char := trim ((line.drop 11).take 16)

section Columns

variable {a : UInt16} {op : Opcode}

/-- What is in the columns of a line. -/
theorem toList_line (a : UInt16) (op : Opcode) :
    (line a op).toList = (Hex.padded 3 a.toNat).toList ++ ("  ".toList
      ++ ((Hex.padded 4 op.toNat).toList ++ ("  ".toList ++ ((padRight 16 op.assembly).toList
      ++ (" ; ".toList ++ (Instruction.decode op).form.description.toList))))) := by
  simp only [line, String.toList_append, List.append_assoc]

theorem length_address (inside : a.toNat < 4096) : (Hex.padded 3 a.toNat).toList.length = 3 :=
  Hex.length_padded inside

theorem length_opcode (op : Opcode) : (Hex.padded 4 op.toNat).toList.length = 4 :=
  Hex.length_padded op.toNat_lt

theorem length_assembly (op : Opcode) : (padRight 16 op.assembly).toList.length = 16 := by
  rw [padRight, String.toList_ofList, List.length_rightpad]
  exact Nat.max_eq_left (Instruction.decode op).length_assembly_le

theorem addressColumn_line (inside : a.toNat < 4096) :
    addressColumn (line a op).toList = (Hex.padded 3 a.toNat).toList := by
  rw [addressColumn, toList_line, List.take_left' (length_address inside)]

theorem opcodeColumn_line (inside : a.toNat < 4096) :
    opcodeColumn (line a op).toList = (Hex.padded 4 op.toNat).toList := by
  rw [opcodeColumn, toList_line, ← List.append_assoc, List.drop_left',
    List.take_left' (length_opcode op)]
  rw [List.length_append, length_address inside]
  rfl

theorem assemblyColumn_line (inside : a.toNat < 4096) :
    assemblyColumn (line a op).toList = op.assembly.toList := by
  rw [assemblyColumn, toList_line, ← List.append_assoc, ← List.append_assoc, ← List.append_assoc,
    List.drop_left', List.take_left' (length_assembly op)]
  · exact trim_of_stripped (Instruction.stripped_assembly _)
  · simp only [List.length_append, length_address inside, length_opcode]
    rfl

theorem onOneLine_line (a : UInt16) (op : Opcode) : OnOneLine (line a op) := by
  have described (f : Form) : OnOneLine f.description := by
    cases f <;> exact onOneLine_ofList (by decide)
  simp +decide [line, Opcode.assembly, described]

end Columns

/-! ## Lines -/

theorem lines_listing (m : Machine) (size : Nat) :
    Text.lines (listing m size).toList = (lines m size).map String.toList := by
  refine lines_join fun l among => ?_
  obtain ⟨entry, -, rfl⟩ := List.mem_map.mp among
  exact onOneLine_line entry.1 entry.2

/-- The program takes up seven eighths of memory at most. -/
theorem length_lines (m : Machine) (size : Nat) :
    (lines m size).length = min ((size + 1) / 2) 0x700 := by
  rw [lines, List.length_map, Machine.length_opcodesFrom]
  rfl

theorem getElem_lines (m : Machine) (size : Nat) {j : Nat} (within : j < (lines m size).length) :
    ∃ a op, a.toNat = 0x200 + 2 * j ∧ m.peek a = some op ∧ (lines m size)[j] = line a op := by
  simp only [lines, List.length_map] at within
  obtain ⟨place, found⟩ := m.getElem_opcodesFrom Rom.start _ within
  exact ⟨_, _, place, found, List.getElem_map _⟩

/-! ## The program again -/

/-- Reads bytes back from a listing, looking at the assembly column only. -/
def reassemble? (text : List Char) : Option (List UInt8) :=
  ((Text.lines text).mapM fun line => Opcode.assemble? (String.ofList (assemblyColumn line))).map
    (·.flatMap Opcode.bytes)

theorem reassemble?_listing (m : Machine) (size : Nat) :
    reassemble? (listing m size).toList =
      some (((m.opcodesFrom Rom.start ((size + 1) / 2)).map (·.2)).flatMap Opcode.bytes) := by
  have each {entries : List (UInt16 × Opcode)} (inside : ∀ e ∈ entries, e.1.toNat < 4096) :
      ((entries.map fun e => line e.1 e.2).map String.toList).mapM
        (fun line => Opcode.assemble? (String.ofList (assemblyColumn line))) =
      some (entries.map (·.2)) := by
    induction entries with
    | nil => rfl
    | cons e entries ih =>
      rw [List.map_cons, List.map_cons, List.mapM_cons,
        assemblyColumn_line (inside e List.mem_cons_self), String.ofList_toList,
        Opcode.assemble?_assembly, ih fun e' among => inside e' (List.mem_cons_of_mem e among)]
      rfl
  rw [reassemble?, lines_listing, lines, each, Option.map_some]
  intro e among
  obtain ⟨j, within, rfl⟩ := List.getElem_of_mem among
  have := Machine.lt_of_peek (m.getElem_opcodesFrom Rom.start _ within).2
  omega

/-- From a loaded program on there are its opcodes, with zeros behind its last byte. -/
theorem opcodesFrom_load (m : Machine) (rom : Rom) {count : Nat} (fits : count ≤ 0x700) :
    ((m.load rom).machine.opcodesFrom Rom.start count).map (·.2) =
      (List.range count).map fun j =>
        .ofBytes (rom.bytes.getD (2 * j) 0) (rom.bytes.getD (2 * j + 1) 0) := by
  have all : ((m.load rom).machine.opcodesFrom Rom.start count).length = count := by
    rw [Machine.length_opcodesFrom]
    exact Nat.min_eq_left fits
  refine List.ext_getElem (by simp [all]) fun j within within' => ?_
  rw [List.length_map] at within
  obtain ⟨place, found⟩ := Machine.getElem_opcodesFrom _ Rom.start count within
  have start : Rom.start.toNat = 0x200 := rfl
  have inside := Machine.lt_of_peek found
  rw [Machine.peek_load m rom (by omega) inside, place, Nat.add_assoc, Nat.add_sub_cancel_left,
    Nat.add_sub_cancel_left] at found
  rw [List.getElem_map, List.getElem_map, List.getElem_range]
  exact (Option.some.inj found).symm

/-- Bytes taken two by two are the bytes one by one. -/
theorem flatMap_range_pairs (byte : Nat → UInt8) (count : Nat) :
    (List.range count).flatMap (fun j => [byte (2 * j), byte (2 * j + 1)]) =
      (List.range (2 * count)).map byte := by
  induction count with
  | zero => rfl
  | succ count ih =>
    rw [List.range_succ, List.flatMap_append, ih, Nat.mul_succ, List.range_succ, List.range_succ]
    simp

/-- The bytes up to an even place: those loaded, and perhaps one zero. -/
theorem map_range_getD {data : Array UInt8} {count : Nat} (few : count ≤ data.size)
    (cut : count < data.size → count % 2 = 0) :
    (List.range (2 * ((count + 1) / 2))).map (data.getD · 0) =
      data.toList.take count ++ List.replicate (count % 2) 0 := by
  have length : (data.toList.take count).length = count := by
    rw [List.length_take, Array.length_toList]
    exact Nat.min_eq_left few
  refine List.ext_getElem ?_ fun j within within' => ?_
  · rw [List.length_append, length, List.length_map, List.length_range, List.length_replicate]
    omega
  · rw [List.length_map, List.length_range] at within
    rw [List.getElem_map, List.getElem_range, Array.getD_eq_getD_getElem?]
    by_cases loaded : j < count
    · rw [List.getElem_append_left (by omega), List.getElem_take, Array.getElem_toList,
        Array.getElem?_eq_getElem (by omega)]
      rfl
    · -- The place behind the last byte: the number of bytes is odd, so none was cut off.
      rw [List.getElem_append_right (by omega), List.getElem_replicate,
        Array.getElem?_eq_none (by omega)]
      rfl

theorem reassemble?_load (m : Machine) (rom : Rom) :
    reassemble? (listing (m.load rom).machine (m.load rom).result).toList =
      some (rom.bytes.toList.take (m.load rom).result ++
        List.replicate ((m.load rom).result % 2) 0) := by
  have fitting : (m.load rom).result = min rom.bytes.size 0xE00 := rfl
  generalize (m.load rom).result = count at fitting
  rw [reassemble?_listing, opcodesFrom_load m rom (by omega), List.flatMap_map]
  simp only [Opcode.bytes_ofBytes]
  rw [flatMap_range_pairs (rom.bytes.getD · 0), map_range_getD (by omega) (by omega)]

/-- A listing of a machine is nothing but its lines, one for each even place of the program up to the
end of memory, in order: each tells the address, the opcode that lies there, and its assembly text. An
assembly text can be read back to its opcode, so that no two opcodes share one, and a listing of a
program just loaded to the bytes that were loaded, with a zero behind them if their number is odd, from
its assembly column alone. -/
theorem listing_reassembles :
    (∀ (m : Machine) (size : Nat),
      let printed := Text.lines (listing m size).toList
      (listing m size).toList = printed.flatMap (· ++ ['\n']) ∧
      printed.length = min ((size + 1) / 2) 0x700 ∧
      ∀ (j : Nat) (within : j < printed.length), ∃ a op,
        a.toNat = 0x200 + 2 * j ∧ m.peek a = some op ∧ printed[j] = (line a op).toList ∧
        Hex.read? (addressColumn printed[j]) = some (0x200 + 2 * j) ∧
        Hex.read? (opcodeColumn printed[j]) = some op.toNat ∧
        assemblyColumn printed[j] = op.assembly.toList) ∧
    (∀ op : Opcode, Opcode.assemble? op.assembly = some op) ∧
    (∀ op op' : Opcode, op.assembly = op'.assembly → op = op') ∧
    ∀ (m : Machine) (rom : Rom),
      let loaded := m.load rom
      reassemble? (listing loaded.machine loaded.result).toList =
        some (rom.bytes.toList.take loaded.result ++ List.replicate (loaded.result % 2) 0) := by
  refine ⟨?_, Opcode.assemble?_assembly, fun _ _ => Opcode.assembly_inj, reassemble?_load⟩
  intro m size printed
  have same : printed = (lines m size).map String.toList := lines_listing m size
  refine ⟨?_, ?_, ?_⟩
  · rw [same]
    exact toList_join_ended _
  · rw [same, List.length_map, length_lines]
  · intro j within
    have within' : j < (lines m size).length := by
      rwa [same, List.length_map] at within
    obtain ⟨a, op, place, found, shown⟩ := getElem_lines m size within'
    have here : printed[j] = (line a op).toList := by
      simp only [same, List.getElem_map, shown]
    have inside : a.toNat < 4096 := Nat.lt_of_succ_lt (Machine.lt_of_peek found)
    refine ⟨a, op, place, found, here, ?_, ?_, ?_⟩
    · rw [here, addressColumn_line inside, Hex.read?_padded, place]
    · rw [here, opcodeColumn_line inside, Hex.read?_padded]
    · rw [here, assemblyColumn_line inside]

end Report.Listing

end ChipEight
