import ChipEight.Keypad
import Mathlib.Data.List.Basic
import Mathlib.Data.List.Induction
/-!
# The keypad told by its events

A keypad stores which keys are down and one key besides. Both can be told from the presses and releases
alone, without the keypad: each is a press that no later event has undone, and they differ in what
undoes a press. For a key to stay down only events of that key count; for it to be the current one,
every later press counts too.
-/
namespace ChipEight.Keypad

inductive Event where
  | press (k : Key)
  | release (k : Key)
  deriving DecidableEq, Repr

namespace Event

/-- The key that an event names. -/
def key : Event → Key
  | press k | release k => k

def IsPress (e : Event) : Prop := e = .press e.key

/-- After the event the press of `k` is no longer the one that counts: another was made, or `k` was
released. -/
def Supersedes (k : Key) (e : Event) : Prop := e.IsPress ∨ e = .release k

end Event

def handle (p : Keypad) : Event → Keypad
  | .press k => p.press k
  | .release k => p.release k

/-- A new keypad after events in a row, the earliest first. -/
def ofEvents (events : List Event) : Keypad := events.foldl handle released

/-- The event `e` is among the events, and no later one undoes it. -/
def Stands (undoes : Event → Prop) (events : List Event) (e : Event) : Prop :=
  ∃ earlier later, events = earlier ++ e :: later ∧ ∀ l ∈ later, ¬ undoes l

theorem not_stands_nil (undoes : Event → Prop) (e : Event) : ¬ Stands undoes [] e := by
  rintro ⟨earlier, later, parted, -⟩
  simp at parted

/-- One more event either is the one that stands or leaves it standing. -/
theorem stands_concat_iff (undoes : Event → Prop) (events : List Event) (e last : Event) :
    Stands undoes (events ++ [last]) e ↔ last = e ∨ (¬ undoes last ∧ Stands undoes events e) := by
  constructor
  · rintro ⟨earlier, later, parted, spared⟩
    rcases List.eq_nil_or_concat' later with rfl | ⟨front, l, rfl⟩
    · exact .inl (List.singleton_inj.mp (List.append_inj_right' parted rfl))
    · rw [← List.cons_append, ← List.append_assoc] at parted
      obtain ⟨before, same⟩ := List.append_inj' parted rfl
      obtain rfl : last = l := List.singleton_inj.mp same
      refine .inr ⟨spared last (by simp), earlier, front, before, fun l among => ?_⟩
      exact spared l (List.mem_append_left _ among)
  · rintro (rfl | ⟨spared, earlier, later, rfl, spareds⟩)
    · exact ⟨events, [], rfl, nofun⟩
    · refine ⟨earlier, later ++ [last], by simp, fun l among => ?_⟩
      rcases List.mem_append.mp among with before | here
      · exact spareds l before
      · exact List.mem_singleton.mp here ▸ spared

theorem ofEvents_concat (events : List Event) (e : Event) :
    ofEvents (events ++ [e]) = (ofEvents events).handle e := by
  rw [ofEvents, List.foldl_append]
  rfl

/-! ## One event -/

theorem isDown_handle (p : Keypad) (e : Event) (k : Key) :
    (p.handle e).isDown k = true ↔ e = .press k ∨ (e.key ≠ k ∧ p.isDown k = true) := by
  cases e with
  | press j =>
    rw [handle, isDown_press, Event.press.injEq, Event.key]
    by_cases same : j = k
    · simp [same]
    · simp [same, Ne.symm same]
  | release j =>
    rw [handle, isDown_release, Event.key, ne_comm]
    simp only [reduceCtorEq, false_or]

theorem current_handle (p : Keypad) (e : Event) (k : Key) :
    (p.handle e).current = some k ↔ e = .press k ∨ (¬ e.Supersedes k ∧ p.current = some k) := by
  cases e with
  | press j => simp [handle, press, Event.Supersedes, Event.IsPress, Event.key]
  | release j =>
    simp only [handle, release, Event.Supersedes, Event.IsPress, Event.key, reduceCtorEq, false_or,
      Event.release.injEq]
    split
    next current => simp [current]
    next other =>
      refine ⟨fun current => ⟨?_, current⟩, And.right⟩
      rintro rfl
      exact other current

/-! ## All events -/

theorem isDown_ofEvents (events : List Event) (k : Key) :
    (ofEvents events).isDown k = true ↔ Stands (·.key = k) events (.press k) := by
  induction events using List.reverseRecOn with
  | nil => simp [ofEvents, isDown, released, not_stands_nil]
  | append_singleton events last ih => rw [ofEvents_concat, isDown_handle, stands_concat_iff, ih]

theorem current_ofEvents (events : List Event) (k : Key) :
    (ofEvents events).current = some k ↔ Stands (·.Supersedes k) events (.press k) := by
  induction events using List.reverseRecOn with
  | nil => simp [ofEvents, released, not_stands_nil]
  | append_singleton events last ih => rw [ofEvents_concat, current_handle, stands_concat_iff, ih]

/-- What leaves a key the current one leaves it down. -/
theorem isDown_of_current {events : List Event} {k : Key}
    (current : (ofEvents events).current = some k) : (ofEvents events).isDown k = true := by
  rw [isDown_ofEvents]
  obtain ⟨earlier, later, parted, spared⟩ := (current_ofEvents events k).mp current
  refine ⟨earlier, later, parted, fun e among named => spared e among ?_⟩
  cases e with
  | press j => exact .inl rfl
  | release j => exact .inr (congrArg Event.release named)

/-- Without a press no key becomes the current one. -/
theorem current_of_no_press {p : Keypad} {later : List Event} (cleared : p.current = none)
    (silent : ∀ e ∈ later, ¬ e.IsPress) : (later.foldl handle p).current = none := by
  induction later generalizing p with
  | nil => exact cleared
  | cons e later ih =>
    refine ih ?_ fun l among => silent l (List.mem_cons_of_mem e among)
    rw [Option.eq_none_iff_forall_ne_some]
    intro k current
    rcases (current_handle p e k).mp current with rfl | ⟨-, before⟩
    · exact silent _ List.mem_cons_self rfl
    · rw [cleared] at before
      cases before

theorem current_release {p : Keypad} {k : Key} (current : p.current = some k) :
    (p.release k).current = none := if_pos current

/-- A key is down exactly if the last event that names it is a press. It is the current key exactly if
the last press of all is of this key and no release of it follows, so there is no current key otherwise:
once the current key is released, there is none until the next press, whatever else is down. The current
key is down. A byte asks for the key that it leaves modulo sixteen. -/
theorem keypad_told_by_events (events : List Event) :
    let p := ofEvents events
    (∀ k, p.isDown k = true ↔ Stands (·.key = k) events (.press k)) ∧
    (∀ k, p.current = some k ↔ Stands (·.Supersedes k) events (.press k)) ∧
    (p.current = none ↔ ∀ k, ¬ Stands (·.Supersedes k) events (.press k)) ∧
    (∀ k later, p.current = some k → (∀ e ∈ later, ¬ e.IsPress) →
      (ofEvents (events ++ .release k :: later)).current = none) ∧
    (∀ k, p.current = some k → p.isDown k = true) ∧
    ∀ (b : UInt8) (k : Key), k.val = b.toNat % 16 → p.isDown (.ofLowDigit b) = p.isDown k := by
  intro p
  refine ⟨isDown_ofEvents events, current_ofEvents events, ?_, ?_, fun k => isDown_of_current, ?_⟩
  · simp only [← current_ofEvents, Option.eq_none_iff_forall_ne_some]
    rfl
  · intro k later current silent
    rw [ofEvents, List.foldl_append, List.foldl_cons]
    exact current_of_no_press (current_release current) silent
  · intro b k same
    exact congrArg p.isDown (Fin.ext same.symm)

/-- The key held down longer does not take the place of the one let go. -/
example :
    let p := ofEvents [.press 1, .press 2, .release 2]
    p.isDown 1 = true ∧ p.current = none := by decide

end ChipEight.Keypad
