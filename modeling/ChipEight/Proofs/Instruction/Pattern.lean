import ChipEight.Instruction.Form
/-!
# Patterns and decoding

Opcodes are described twice: each form has a pattern, and `decode` picks a form by the digits. The two
descriptions agree (`form_decode_eq_iff`), and the patterns leave no choice, but for `00E0` and `00EE`,
which fit `0NNN` as well. One half follows from the encoder, since an encoded instruction has the digits
of its pattern (`covers_encode`); the other reads the digits that a pattern asks for off the opcode and
decodes them (`form_decode_of_covers`).
-/
namespace ChipEight

namespace Opcode

theorem nibbles_withAddress (family : Nibble) (a : Address) :
    (withAddress family a).nibbles =
      [family, Fin.ofNat 16 (a.val / 256), Fin.ofNat 16 (a.val / 16), Fin.ofNat 16 a.val] := by
  have := family.isLt
  have := a.isLt
  simp only [nibbles, List.cons.injEq, and_true, Fin.ext_iff, withAddress, Opcode.family, Opcode.x,
    Opcode.y, Opcode.n, UInt16.toNat_ofNat', Fin.val_ofNat]
  omega

theorem nibbles_withByte (family : Nibble) (x : Register) (b : UInt8) :
    (withByte family x b).nibbles =
      [family, x, Fin.ofNat 16 (b.toNat / 16), Fin.ofNat 16 b.toNat] := by
  have := family.isLt
  have := x.isLt
  have := b.toNat_lt
  simp only [nibbles, List.cons.injEq, and_true, Fin.ext_iff, withByte, Opcode.family, Opcode.x,
    Opcode.y, Opcode.n, UInt16.toNat_ofNat', Fin.val_ofNat]
  omega

theorem nibbles_withDigits (family : Nibble) (x y : Register) (n : Nibble) :
    (withDigits family x y n).nibbles = [family, x, y, n] := by
  have := family.isLt
  have := x.isLt
  have := y.isLt
  have := n.isLt
  simp only [nibbles, List.cons.injEq, and_true, Fin.ext_iff, withDigits, Opcode.family, Opcode.x,
    Opcode.y, Opcode.n, UInt16.toNat_ofNat', Fin.val_ofNat]
  omega

theorem x_withByte (family : Nibble) (x : Register) (b : UInt8) : (withByte family x b).x = x :=
  (List.cons.inj (List.cons.inj (nibbles_withByte family x b)).2).1

theorem x_withDigits (family : Nibble) (x y : Register) (n : Nibble) :
    (withDigits family x y n).x = x :=
  (List.cons.inj (List.cons.inj (nibbles_withDigits family x y n)).2).1

/-- The low byte is made of the last two digits. -/
theorem toNat_nn (op : Opcode) : op.nn.toNat = op.y.val * 16 + op.n.val := by
  simp only [nn, y, n, UInt8.toNat_ofNat', Fin.val_ofNat]
  omega

end Opcode

namespace Form

theorem allows_open (d : Nibble) :
    allows 'X' d = true ∧ allows 'Y' d = true ∧ allows 'N' d = true :=
  ⟨rfl, rfl, rfl⟩

theorem allows_literal (d : Nibble) :
    allows '0' d = decide (d = 0x0) ∧ allows '1' d = decide (d = 0x1) ∧
    allows '2' d = decide (d = 0x2) ∧ allows '3' d = decide (d = 0x3) ∧
    allows '4' d = decide (d = 0x4) ∧ allows '5' d = decide (d = 0x5) ∧
    allows '6' d = decide (d = 0x6) ∧ allows '7' d = decide (d = 0x7) ∧
    allows '8' d = decide (d = 0x8) ∧ allows '9' d = decide (d = 0x9) ∧
    allows 'A' d = decide (d = 0xA) ∧ allows 'B' d = decide (d = 0xB) ∧
    allows 'C' d = decide (d = 0xC) ∧ allows 'D' d = decide (d = 0xD) ∧
    allows 'E' d = decide (d = 0xE) ∧ allows 'F' d = decide (d = 0xF) ∧
    allows '?' d = false := by
  revert d
  decide

end Form

namespace Instruction

/-- An instruction is written with the digits of its form's pattern. -/
theorem covers_encode {i : Instruction} (known : i.form ≠ .unknown) :
    i.form.covers i.encode = true := by
  cases i with
  | unknown op => exact absurd rfl known
  | clear | ret => decide
  | machineRoutine a | jump a | call a | loadIndex a | jumpOffset a =>
    simp [form, Form.covers, Form.pattern, Form.entry, encode, Opcode.nibbles_withAddress,
      Form.allows_open, Form.allows_literal]
  | skipEq x y | skipNe x y | copy x y | or x y | and x y | xor x y | add x y | sub x y
  | shiftRight x y | subFrom x y | shiftLeft x y | draw x y n =>
    simp [form, Form.covers, Form.pattern, Form.entry, encode, Opcode.nibbles_withDigits,
      Form.allows_open, Form.allows_literal]
  | skipEqByte x b | skipNeByte x b | loadByte x b | addByte x b | random x b =>
    simp [form, Form.covers, Form.pattern, Form.entry, encode, Opcode.nibbles_withByte,
      Form.allows_open, Form.allows_literal]
  | _ x =>
    simp only [form, Form.covers, Form.pattern, Form.entry, encode, Opcode.nibbles_withByte,
      String.reduceToList, List.zip_cons_cons, List.zip_nil_right, List.all_cons, List.all_nil,
      Form.allows_open, Form.allows_literal]
    rfl

theorem covers_form_decode {op : Opcode} (known : (decode op).form ≠ .unknown) :
    (decode op).form.covers op = true := by
  have written := covers_encode known
  rwa [encode_decode] at written

/-- An opcode that fits a pattern, and none that goes first, is decoded to the form of the pattern. -/
theorem form_decode_of_covers {f : Form} {op : Opcode} (fits : f.covers op = true)
    (first : f = .machineRoutine → Form.clear.covers op = false ∧ Form.ret.covers op = false) :
    (decode op).form = f := by
  cases f <;> simp only [Form.covers, Form.pattern, Form.entry, String.reduceToList, Opcode.nibbles,
    List.zip_cons_cons, List.zip_nil_right, List.all_cons, List.all_nil, Form.allows_open,
    Form.allows_literal, Bool.and_true, Bool.true_and, Bool.and_eq_true, Bool.false_eq_true,
    Bool.false_and, decide_eq_true_eq] at fits
  case machineRoutine =>
    obtain ⟨noClear, noRet⟩ := first rfl
    have special : op ≠ 0x00E0 ∧ op ≠ 0x00EE := by
      constructor
      · rintro rfl
        exact absurd noClear (by decide)
      · rintro rfl
        exact absurd noRet (by decide)
    simp [decode, fits, special, form]
  case clear | ret =>
    have written := Opcode.withDigits_fields op
    rw [fits.1, fits.2.1, fits.2.2.1, fits.2.2.2] at written
    subst written
    decide
  case skipEq | skipNe | copy | or | and | xor | add | sub | shiftRight | subFrom | shiftLeft =>
    rw [decode, fits.1, fits.2]
    rfl
  case skipKeyDown | skipKeyUp | readDelay | waitKey | setDelay | setSound | addIndex | loadGlyph
      | storeDecimal | storeRegisters | loadRegisters =>
    rw [decode, fits.1, Opcode.toNat_nn, fits.2.1, fits.2.2]
    rfl
  -- What is left is told by the family alone.
  all_goals
    rw [decode, fits]
    rfl

theorem decode_of_draw {op : Opcode} (family : op.family = 0xD) :
    decode op = draw op.x op.y op.n := by
  rw [decode, family]
  rfl

end Instruction

end ChipEight
