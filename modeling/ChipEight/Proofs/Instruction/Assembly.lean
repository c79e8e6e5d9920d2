import ChipEight.Instruction.Assembler
import ChipEight.Proofs.Text.Blank
import ChipEight.Proofs.Text.Hex
import ChipEight.Proofs.Text.Parts
import ChipEight.Text.Character
import Mathlib.Data.List.Basic
/-!
# Assembly text read back

The assembler undoes `assembly` on every instruction (`assemble?_assembly`), so no two opcodes share a
text. What makes the text readable is that no operand holds a blank or a comma and that each kind of
operand has a spelling of its own.
-/
namespace ChipEight

open Text

namespace Operand

/-- Neither a blank nor a comma. -/
def isPlain (c : Char) : Bool := !isBlank c && c != ','

theorem isPlain_iff (c : Char) : isPlain c = true ↔ isBlank c = false ∧ c ≠ ',' := by
  simp [isPlain]

theorem isBlank_of_isPlain {c : Char} (plain : isPlain c = true) : isBlank c = false :=
  ((isPlain_iff c).mp plain).1

theorem isPlain_of_value? {c : Char} (found : Hex.value? c ≠ none) : isPlain c = true := by
  have range := Hex.range_of_value? found
  rw [isPlain_iff]
  constructor
  · simp only [isBlank, blankRanges, List.any_cons, List.any_nil, Bool.or_false,
      Bool.or_eq_false_iff, Bool.and_eq_false_iff, decide_eq_false_iff_not]
    omega
  · rintro rfl
    exact absurd range (by decide)

theorem all_isPlain_append_padded {front : String} (plain : front.toList.all isPlain = true)
    (width n : Nat) : (front ++ Hex.padded width n).toList.all isPlain = true := by
  rw [String.toList_append, List.all_append, plain, Bool.true_and, List.all_eq_true]
  exact fun c digit => isPlain_of_value? (Hex.value?_ne_none_of_mem_padded digit)

theorem all_isPlain_text (o : Operand) : o.text.toList.all isPlain = true := by
  cases o with
  | register r => exact all_isPlain_append_padded (by decide) _ _
  | address _ | byte _ | word _ => exact all_isPlain_append_padded (by decide) _ _
  | count n =>
    revert n
    decide
  | index | indirect | delayTimer | soundTimer | key | glyph | decimal => decide

theorem isPlain_of_mem_text {o : Operand} {c : Char} (among : c ∈ o.text.toList) :
    isPlain c = true :=
  List.all_eq_true.mp o.all_isPlain_text c among

theorem text_ne_nil (o : Operand) : o.text.toList ≠ [] := by
  cases o with
  | count n =>
    revert n
    decide
  | index | indirect | delayTimer | soundTimer | key | glyph | decimal => decide
  | _ => simp [text, Hex.marked]

/-- The most characters that an operand takes. -/
def room : Operand → Nat
  | register _ | count _ | delayTimer | soundTimer => 2
  | address _ => 5
  | byte _ => 4
  | word _ => 6
  | indirect => 3
  | index | key | glyph | decimal => 1

theorem length_text_le (o : Operand) : o.text.toList.length ≤ o.room := by
  have marked {width n : Nat} (fits : n < 16 ^ (width + 1)) :
      (Hex.marked (width + 1) n).toList.length ≤ width + 3 := by
    obtain ⟨text, spelled, length, -⟩ := Hex.exists_toList_marked fits
    rw [spelled, List.length_cons, List.length_cons, length]
  cases o with
  | register r =>
    rw [text, String.toList_append, Hex.padded_one r.isLt]
    exact Nat.le_refl 2
  | address a => exact marked a.isLt
  | byte b => exact marked b.toNat_lt
  | word op => exact marked op.toNat_lt
  | count n =>
    revert n
    decide
  | index | indirect | delayTimer | soundTimer | key | glyph | decimal => decide

/-- An operand is told by its spelling. -/
theorem read?_text (o : Operand) : read? o.text.toList = some o := by
  cases o with
  | register r =>
    rw [text, String.toList_append, Hex.padded_one r.isLt]
    change (digit? (Hex.digit r.val)).map register = _
    rw [digit?, Hex.value?_digit r.isLt]
    simp
  | address a =>
    have fits : a.val < 16 ^ (2 + 1) := a.isLt
    obtain ⟨digits, spelled, width, read⟩ := Hex.exists_toList_marked fits
    obtain ⟨c, d, e, rfl⟩ := List.length_eq_three.mp width
    rw [text, spelled]
    change (Hex.read? [c, d, e]).map _ = _
    rw [read]
    simp
  | byte b =>
    have fits : b.toNat < 16 ^ (1 + 1) := b.toNat_lt
    obtain ⟨digits, spelled, width, read⟩ := Hex.exists_toList_marked fits
    obtain ⟨c, d, rfl⟩ := List.length_eq_two.mp width
    rw [text, spelled]
    change (Hex.read? [c, d]).map _ = _
    rw [read]
    simp
  | word op =>
    have fits : op.toNat < 16 ^ (3 + 1) := op.toNat_lt
    obtain ⟨digits, spelled, width, read⟩ := Hex.exists_toList_marked fits
    obtain ⟨c, d, e, f, rfl⟩ := List.length_eq_four.mp width
    rw [text, spelled]
    change (Hex.read? [c, d, e, f]).map _ = _
    rw [read]
    simp
  | count n =>
    revert n
    decide
  | index | indirect | delayTimer | soundTimer | key | glyph | decimal => rfl

end Operand

namespace Instruction

/-! ## Splitting -/

theorem splitOperands_of_notMem {text : List Char} (plain : ',' ∉ text) :
    splitOperands text = [text] := by
  induction text with
  | nil => rfl
  | cons c text ih =>
    rw [splitOperands, ih (List.not_mem_of_not_mem_cons plain)]
    rintro rest rfl
    exact absurd List.mem_cons_self plain

theorem splitOperands_append {text : List Char} (plain : ',' ∉ text) (rest : List Char) :
    splitOperands (text ++ ',' :: ' ' :: rest) = text :: splitOperands rest := by
  induction text with
  | nil => rfl
  | cons c text ih =>
    rw [List.cons_append, splitOperands, ih (List.not_mem_of_not_mem_cons plain)]
    rintro rest rfl
    exact absurd List.mem_cons_self plain

/-- Parts without commas are found again between the separators. -/
theorem splitOperands_intercalate {parts : List (List Char)} (some : parts ≠ [])
    (plain : ∀ p ∈ parts, ',' ∉ p) : splitOperands ([',', ' '].intercalate parts) = parts := by
  induction parts with
  | nil => exact absurd rfl some
  | cons p parts ih =>
    have first := plain p List.mem_cons_self
    cases parts with
    | nil => rw [List.intercalate_singleton, splitOperands_of_notMem first]
    | cons q parts =>
      rw [List.intercalate_cons_cons, List.append_assoc, List.cons_append, List.cons_append,
        List.nil_append, splitOperands_append first,
        ih (List.cons_ne_nil q parts) fun r among => plain r (List.mem_cons_of_mem p among)]

theorem ofParts?_operands (i : Instruction) : ofParts? i.form.mnemonic i.operands = some i := by
  cases i <;> rfl

/-! ## Whole texts -/

theorem isPlain_of_mem_mnemonic {f : Form} {c : Char} (among : c ∈ f.mnemonic.toList) :
    Operand.isPlain c = true := by
  have all : f.mnemonic.toList.all Operand.isPlain = true := by
    cases f <;> decide
  exact List.all_eq_true.mp all c among

theorem mnemonic_ne_nil (f : Form) : f.mnemonic.toList ≠ [] := by
  cases f <;> decide

/-- The part of an assembly text that is behind the mnemonic. -/
def operandText (os : List Operand) : List Char :=
  if os = [] then [] else ' ' :: [',', ' '].intercalate (os.map fun o => o.text.toList)

theorem toList_assembly (i : Instruction) :
    i.assembly.toList = i.form.mnemonic.toList ++ operandText i.operands := by
  unfold assembly operandText
  split
  next none => rw [none, if_pos rfl, List.append_nil]
  next some =>
    rw [if_neg some, String.toList_append, String.toList_append, String.toList_intercalate,
      List.map_map, List.append_assoc]
    rfl

theorem readOperands?_operandText (os : List Operand) : readOperands? (operandText os) = os := by
  have each : (os.map fun o => o.text.toList).mapM Operand.read? = os := by
    induction os with
    | nil => rfl
    | cons o os ih => rw [List.map_cons, List.mapM_cons, Operand.read?_text, ih]; rfl
  unfold operandText
  split
  next none =>
    rw [none]
    rfl
  next some =>
    rw [readOperands?, splitOperands_intercalate, each]
    · exact fun none => some (List.map_eq_nil_iff.mp none)
    · intro p among comma
      obtain ⟨o, -, rfl⟩ := List.mem_map.mp among
      exact absurd (Operand.isPlain_of_mem_text comma) (by decide)

/-- The assembler undoes the writing of an instruction. -/
theorem assemble?_assembly (i : Instruction) : assemble? i.assembly = some i := by
  have unbroken : ∀ c ∈ i.form.mnemonic.toList, (c != ' ') = true := by
    intro c among
    rw [bne_iff_ne]
    rintro rfl
    exact absurd (isPlain_of_mem_mnemonic among) (by decide)
  have stop : (operandText i.operands).takeWhile (· != ' ') = [] ∧
      (operandText i.operands).dropWhile (· != ' ') = operandText i.operands := by
    unfold operandText
    split <;> exact ⟨rfl, rfl⟩
  rw [assemble?, toList_assembly, List.dropWhile_append_of_pos unbroken,
    List.takeWhile_append_of_pos unbroken, stop.1, stop.2, List.append_nil, String.ofList_toList,
    readOperands?_operandText]
  exact ofParts?_operands i

/-! ## Layout -/

theorem operandText_concat (os : List Operand) (o : Operand) :
    ∃ front, operandText (os ++ [o]) = ' ' :: front ++ o.text.toList := by
  rw [operandText, if_neg (by simp), List.map_append]
  cases os with
  | nil =>
    rw [List.map_nil, List.nil_append, List.map_singleton, List.intercalate_singleton]
    exact ⟨[], rfl⟩
  | cons first os =>
    rw [List.map_cons, List.cons_append, intercalate_cons_eq, List.flatMap_append, ← List.append_assoc,
      List.map_singleton, List.flatMap_singleton, ← List.append_assoc]
    exact ⟨_, rfl⟩

theorem isPlain_or_of_mem_assembly {i : Instruction} {c : Char} (among : c ∈ i.assembly.toList) :
    Operand.isPlain c = true ∨ c ∈ [',', ' '] := by
  rw [toList_assembly] at among
  rcases List.mem_append.mp among with front | behind
  · exact .inl (isPlain_of_mem_mnemonic front)
  · unfold operandText at behind
    split at behind
    next => cases behind
    next =>
      rcases List.mem_cons.mp behind with rfl | inside
      · exact .inr (List.mem_cons_of_mem _ List.mem_cons_self)
      rcases mem_intercalate inside with between | ⟨x, operand, part⟩
      · exact .inr between
      · obtain ⟨o, -, rfl⟩ := List.mem_map.mp operand
        exact .inl (Operand.isPlain_of_mem_text part)

@[simp] theorem onOneLine_assembly (i : Instruction) : OnOneLine i.assembly :=
  fun among => absurd (isPlain_or_of_mem_assembly among) (by decide)

/-- The text starts and ends with something to be seen. -/
theorem stripped_assembly (i : Instruction) {width : Nat} :
    Stripped (padRight width i.assembly).toList i.assembly.toList := by
  constructor
  · refine ⟨[], List.replicate (width - i.assembly.toList.length) ' ', ?_, nofun, ?_⟩
    · rw [padRight, String.toList_ofList]
      rfl
    · intro c blank
      rw [List.eq_of_mem_replicate blank]
      decide
  · intro c first
    rw [toList_assembly, List.head?_append_of_ne_nil _ (mnemonic_ne_nil i.form)] at first
    exact Operand.isBlank_of_isPlain (isPlain_of_mem_mnemonic (List.mem_of_mem_head? first))
  · intro c last
    rw [toList_assembly] at last
    rcases List.eq_nil_or_concat' i.operands with none | ⟨front, o, some⟩
    · rw [none, operandText, if_pos rfl, List.append_nil] at last
      exact Operand.isBlank_of_isPlain (isPlain_of_mem_mnemonic (List.mem_of_getLast? last))
    · obtain ⟨before, parted⟩ := operandText_concat front o
      rw [some, parted, ← List.append_assoc,
        List.getLast?_append_of_ne_nil _ o.text_ne_nil] at last
      exact Operand.isBlank_of_isPlain (Operand.isPlain_of_mem_text (List.mem_of_getLast? last))

theorem length_operandText_le (os : List Operand) :
    (operandText os).length ≤ (os.map fun o => o.room + 2).sum := by
  have behind (os : List Operand) :
      ((os.map fun o => o.text.toList).flatMap ([',', ' '] ++ ·)).length ≤
        (os.map fun o => o.room + 2).sum := by
    induction os with
    | nil => exact Nat.le_refl 0
    | cons o os ih =>
      have := o.length_text_le
      simp only [List.map_cons, List.flatMap_cons, List.length_append, List.sum_cons,
        List.length_cons, List.length_nil] at ih ⊢
      omega
  cases os with
  | nil => exact Nat.zero_le _
  | cons o os =>
    have := o.length_text_le
    have := behind os
    rw [operandText, if_neg (List.cons_ne_nil o os), List.map_cons, intercalate_cons_eq,
      List.length_cons, List.length_append, List.map_cons, List.sum_cons]
    omega

/-- Every text fits a column of sixteen characters. -/
theorem length_assembly_le (i : Instruction) : i.assembly.toList.length ≤ 16 := by
  have room : i.form.mnemonic.toList.length + (i.operands.map fun o => o.room + 2).sum ≤ 16 := by
    cases i <;> simp [form, Form.mnemonic, Form.entry, operands, Operand.room]
  have := length_operandText_le i.operands
  rw [toList_assembly, List.length_append]
  omega

end Instruction

namespace Opcode

/-- The assembler undoes the disassembler. -/
theorem assemble?_assembly (op : Opcode) : assemble? op.assembly = some op := by
  rw [assemble?, assembly, Instruction.assemble?_assembly, Option.map_some,
    Instruction.encode_decode]

/-- No two opcodes share an assembly text. -/
theorem assembly_inj {op op' : Opcode} (same : op.assembly = op'.assembly) : op = op' := by
  have read := assemble?_assembly op
  rw [same, assemble?_assembly] at read
  exact (Option.some.inj read).symm

end Opcode

end ChipEight
