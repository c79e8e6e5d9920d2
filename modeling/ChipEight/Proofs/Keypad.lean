import ChipEight.Keypad
/-!
# Keys in a row

Keys released and pressed one after the other, the same key perhaps more than once. `Holds.exchange` is
what comes of letting go of the keys of one list and pressing those of another.
-/
namespace ChipEight.Keypad

/-- Just the keys of the list are down, and its last key is the one that went down last. -/
structure Holds (p : Keypad) (keys : List Key) : Prop where
  down (k : Key) : p.isDown k = true ↔ k ∈ keys
  current : p.current = keys.getLast?

theorem holds_released : released.Holds [] where
  down k := by simp [isDown, released]
  current := rfl

theorem isDown_releases (p : Keypad) (keys : List Key) (k : Key) :
    (keys.foldl release p).isDown k = true ↔ k ∉ keys ∧ p.isDown k = true := by
  induction keys generalizing p with
  | nil => simp
  | cons first keys ih =>
    rw [List.foldl_cons, ih, isDown_release, List.mem_cons, not_or]
    constructor
    · rintro ⟨later, other, down⟩
      exact ⟨⟨other, later⟩, down⟩
    · rintro ⟨⟨other, later⟩, down⟩
      exact ⟨later, other, down⟩

/-- The key that went down last is forgotten if it is among those released. -/
theorem current_releases {p : Keypad} {keys : List Key}
    (among : ∀ k, p.current = some k → k ∈ keys) : (keys.foldl release p).current = none := by
  induction keys generalizing p with
  | nil =>
    cases current : p.current with
    | none => exact current
    | some k => cases among k current
  | cons first keys ih =>
    refine ih fun k current => ?_
    simp only [release] at current
    split at current
    next => cases current
    next other =>
      rcases List.mem_cons.mp (among k current) with same | later
      · exact absurd (same ▸ current) other
      · exact later

namespace Holds

variable {p : Keypad} {keys : List Key}

theorem releases (holds : p.Holds keys) : (keys.foldl release p).Holds [] where
  down k := by
    rw [isDown_releases, holds.down]
    simp
  current := current_releases fun k current => by
    rw [holds.current] at current
    exact List.mem_of_getLast? current

theorem press (holds : p.Holds keys) (k : Key) : (p.press k).Holds (keys ++ [k]) where
  down j := by
    rw [isDown_press, holds.down, List.mem_append, List.mem_singleton, or_comm]
  current := List.getLast?_concat.symm

theorem presses (holds : p.Holds keys) (more : List Key) :
    (more.foldl Keypad.press p).Holds (keys ++ more) := by
  induction more generalizing p keys with
  | nil =>
    rw [List.append_nil]
    exact holds
  | cons k more ih =>
    rw [List.append_cons]
    exact ih (holds.press k)

/-- However often a key is on either list, what is down afterwards is what is on the second. -/
theorem exchange (holds : p.Holds keys) (next : List Key) :
    (next.foldl Keypad.press (keys.foldl release p)).Holds next :=
  holds.releases.presses next

end Holds

end ChipEight.Keypad
