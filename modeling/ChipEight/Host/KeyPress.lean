import ChipEight.Keypad
import ChipEight.Text.Character
import ChipEight.Text.Numeral
import ChipEight.Text.Quoted
/-!
# Scripted key presses

A key held down for one frame, written `FRAME:KEY` with the key in the keyboard's terms: the keypad is
laid over the left four columns of a keyboard, row by row (the specification, §10.4). White space around
either part is ignored, but a refusal shows the parts as they were written.
-/
namespace ChipEight.Host

open Text

/-- The key that a character of the keyboard stands for; capital letters count as small ones. -/
def keymap (c : Char) : Option Key :=
  match c.toLower with
  | '1' => some 0x1 | '2' => some 0x2 | '3' => some 0x3 | '4' => some 0xC
  | 'q' => some 0x4 | 'w' => some 0x5 | 'e' => some 0x6 | 'r' => some 0xD
  | 'a' => some 0x7 | 's' => some 0x8 | 'd' => some 0x9 | 'f' => some 0xE
  | 'z' => some 0xA | 'x' => some 0x0 | 'c' => some 0xB | 'v' => some 0xF
  | _ => none

structure KeyPress where
  frame : Nat
  key : Key
  deriving DecidableEq, Repr

namespace KeyPress

/-- Why a text is no key press. -/
inductive Refusal where
  | noColon (text : List Char)
  | badFrame (text : List Char) (reason : Numeral.Refusal)
  | notOneKey (text : List Char)
  | unmapped (c : Char)
  deriving DecidableEq, Repr

/-- The texts of a refusal: what is wrong, and the cause of that if there is one. -/
def Refusal.messages : Refusal → List String
  | noColon text => ["expected FRAME:KEY but got " ++ Quoted.string text]
  | badFrame text reason => [Quoted.string text ++ " is not a frame number", reason.message]
  | notOneKey text => ["expected a single key but got " ++ Quoted.string text]
  | unmapped c => [Quoted.char c ++ " isn't mapped to the keypad"]

/-- The refusal on one line. -/
def Refusal.message (r : Refusal) : String := ": ".intercalate r.messages

/-- Frames are counted in 64 bits. -/
def frameBound : Nat := UInt64.size

/-- The parts of a text before and after its first colon. -/
def splitColon? : List Char → Option (List Char × List Char)
  | [] => none
  | ':' :: rest => some ([], rest)
  | c :: rest => (splitColon? rest).map fun parts => (c :: parts.1, parts.2)

/-- The key in the part after the colon. -/
def readKey (text : List Char) : Except Refusal Key :=
  match trim text with
  | [c] =>
    match keymap c with
    | some k => .ok k
    | none => .error (.unmapped c)
  | _ => .error (.notOneKey text)

/-- Reads a key press; of two bad parts the frame is reported. -/
def read (text : List Char) : Except Refusal KeyPress :=
  match splitColon? text with
  | none => .error (.noColon text)
  | some (frame, key) =>
    match Numeral.read frameBound (trim frame) with
    | .error reason => .error (.badFrame frame reason)
    | .ok frame =>
      match readKey key with
      | .ok k => .ok ⟨frame, k⟩
      | .error refusal => .error refusal

end KeyPress

end ChipEight.Host
