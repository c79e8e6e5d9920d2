import ChipEight.Opcode
import ChipEight.Text.Hex
/-!
# The keypad

Sixteen keys, each named by its hexadecimal digit (the specification, §3 and §10.4). The keypad knows
which keys are down and which went down last; the latter is what a waiting program takes (§4.5), and only
its own release takes it away (§10.3).
-/
namespace ChipEight

abbrev Key := Nibble

/-- A byte that is no key's index. -/
structure InvalidKey where
  index : UInt8
  deriving DecidableEq, Repr

def InvalidKey.message (e : InvalidKey) : String :=
  Text.Hex.marked 1 e.index.toNat ++ " is not a keypad key"

namespace Key

def all : List Key := List.finRange 16

/-- The keys as they lie on the pad. -/
def layout : List (List Key) :=
  [[0x1, 0x2, 0x3, 0xC], [0x4, 0x5, 0x6, 0xD], [0x7, 0x8, 0x9, 0xE], [0xA, 0x0, 0xB, 0xF]]

def ofIndex (index : UInt8) : Except InvalidKey Key :=
  if h : index.toNat < 16 then .ok ⟨index.toNat, h⟩ else .error ⟨index⟩

/-- The key that the low digit of a byte names. -/
def ofLowDigit (b : UInt8) : Key := Fin.ofNat 16 b.toNat

def index (k : Key) : UInt8 := UInt8.ofNat k.val

def name (k : Key) : String := Text.Hex.padded 1 k.val

end Key

structure Keypad where
  pressed : Vector Bool 16
  /-- The key that went down last, unless it has been released. -/
  current : Option Key
  deriving DecidableEq

namespace Keypad

def released : Keypad := ⟨Vector.replicate 16 false, none⟩

def isDown (p : Keypad) (k : Key) : Bool := p.pressed[k]

def press (p : Keypad) (k : Key) : Keypad := ⟨p.pressed.set k true, some k⟩

def release (p : Keypad) (k : Key) : Keypad :=
  ⟨p.pressed.set k false, if p.current = some k then none else p.current⟩

/-- The keys that are down, in ascending order. -/
def down (p : Keypad) : List Key := Key.all.filter p.isDown

theorem isDown_press (p : Keypad) (k j : Key) : (p.press k).isDown j = (j = k ∨ p.isDown j) := by
  by_cases h : k = j
  · simp [isDown, press, h]
  · have : k.val ≠ j.val := fun e => h (Fin.ext e)
    simp [isDown, press, this, Ne.symm h]

theorem isDown_release (p : Keypad) (k j : Key) :
    (p.release k).isDown j = (j ≠ k ∧ p.isDown j) := by
  by_cases h : k = j
  · simp [isDown, release, h]
  · have : k.val ≠ j.val := fun e => h (Fin.ext e)
    simp [isDown, release, this, Ne.symm h]

end Keypad

end ChipEight
