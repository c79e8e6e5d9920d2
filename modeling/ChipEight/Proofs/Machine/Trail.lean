import Mathlib.Data.List.Infix
import ChipEight.Proofs.Machine.Run
/-!
# The trail of opcodes

The opcodes that a machine has stepped and not gone back on make up its trail, which no bound cuts
short. The past opcodes of the machine are the end of it. How much of the end they are is the business of
two bounds, since rewinds take opcodes off that no room was kept for the older ones behind: a `Trail`
keeps count of it (`past_is_end_of_trail`).
-/
namespace ChipEight.Machine

structure Trail where
  /-- The opcodes stepped since the last load and not gone back on, the earliest first. -/
  opcodes : List Opcode
  /-- How many of the latest of them are remembered. -/
  kept : Nat

namespace Trail

/-- Nothing has been stepped yet. -/
def empty : Trail := ⟨[], 0⟩

/-- A successful step adds its opcode, a successful rewind takes the last one off, and a load starts
anew. -/
def note (t : Trail) (m : Machine) : Operation → Trail
  | .load _ => empty
  | .step =>
    match m.step.result with
    | .ok op => ⟨t.opcodes ++ [op], min pastLimit (t.kept + 1)⟩
    | .error _ => t
  | .rewind => if m.rewind.result then ⟨t.opcodes.dropLast, t.kept - 1⟩ else t
  | _ => t

/-- The past opcodes of a machine are the end of the trail, as much of it as is kept, and no state is
remembered that has no step on the trail. -/
structure EndsIn (t : Trail) (m : Machine) : Prop where
  latest : m.past <+: t.opcodes.reverse
  length : m.past.length = t.kept
  bounded : t.kept ≤ pastLimit
  undoable : m.history.length ≤ t.opcodes.length

theorem EndsIn.change {t : Trail} {m after : Machine} {op : Operation} (change : Change m op after)
    (here : t.EndsIn m) : (t.note m op).EndsIn after := by
  cases change with
  | load rom memory => exact ⟨List.nil_prefix, rfl, Nat.zero_le _, Nat.le_refl 0⟩
  | @stepped op after fetched carried result =>
    have noted : t.note m .step = ⟨t.opcodes ++ [op], min pastLimit (t.kept + 1)⟩ := by
      rw [note, result]
    have bounded : m.past.length ≤ pastLimit := by
      rw [here.length]
      exact here.bounded
    have past : push pastLimit op m.past = (op :: m.past).take pastLimit :=
      push_eq_take (by decide) bounded op
    rw [noted, remember, past]
    refine ⟨?_, ?_, Nat.min_le_left _ _, ?_⟩
    · rw [List.reverse_append]
      exact (List.take_prefix _ _).trans ((List.prefix_cons_inj op).mpr here.latest)
    · rw [List.length_take, List.length_cons, here.length]
    · have undoable := here.undoable
      have longer : (save m.config.historyLimit m.state m.history).length ≤ m.history.length + 1 :=
        length_save_le _ _ _
      rw [List.length_append, List.length_singleton]
      exact Nat.le_trans longer (Nat.succ_le_succ undoable)
  | unstepped result =>
    have noted : t.note m .step = t := by rw [note, result]
    rw [noted]
    exact here
  | @rewound before older history =>
    have noted : t.note m .rewind = ⟨t.opcodes.dropLast, t.kept - 1⟩ := by
      rw [note, (rewind_of_cons history).2, if_pos rfl]
    have undoable := here.undoable
    rw [history, List.length_cons] at undoable
    rw [noted]
    refine ⟨?_, ?_, Nat.le_trans (Nat.sub_le _ _) here.bounded, ?_⟩
    · rw [← List.tail_reverse, ← List.drop_one, ← List.drop_one]
      exact here.latest.drop 1
    · rw [List.length_tail, here.length]
    · change older.length ≤ t.opcodes.dropLast.length
      rw [List.length_dropLast]
      omega
  | unwound history =>
    have noted : t.note m .rewind = t := by
      rw [note, (rewind_of_nil history).2, if_neg Bool.false_ne_true]
    rw [noted]
    exact here
  | _ => exact ⟨here.latest, here.length, here.bounded, here.undoable⟩

/-- All is kept that there is room for. -/
def Full (t : Trail) : Prop := t.kept = min pastLimit t.opcodes.length

theorem Full.note {t : Trail} (full : t.Full) (m : Machine) {op : Operation}
    (noRewind : op ≠ .rewind) : (t.note m op).Full := by
  unfold Trail.note
  split
  · rfl
  · split
    · simp only [Full, List.length_append, List.length_singleton] at full ⊢
      omega
    · exact full
  · contradiction
  · exact full

end Trail

/-- The trail of a run that starts with nothing remembered. -/
def trail (m : Machine) (ops : List Operation) : Trail := observe Trail.note .empty m ops

theorem endsIn_trail (config : Config) (random : Random.Stream) (ops : List Operation) :
    (trail (newWith config random) ops).EndsIn ((newWith config random).performAll ops) :=
  observe_keeps Trail.EndsIn.change ⟨List.nil_prefix, rfl, Nat.zero_le _, Nat.le_refl 0⟩ ops

/-- Where all was kept that there was room for, it still is until a rewind. -/
theorem Trail.Full.observe {t : Trail} (full : t.Full) (m : Machine) {ops : List Operation}
    (noRewind : .rewind ∉ ops) : (Machine.observe Trail.note t m ops).Full := by
  refine record_keeps_of_mem (I := fun t _ => Full t) (fun t m op mem full => ?_) full
  apply full.note m
  rintro rfl
  exact rewind_notMem_primitives noRewind mem

/-- After any operations on a new machine, the past opcodes that it tells are the end of the trail: of the
opcodes stepped since the last load, those that no rewind has gone back on, in their order. They are as
many as are kept, 35 at most, and all that there are up to that number if there was no rewind since the
last load. Whatever a rewind goes back on is on the trail, kept or not. -/
theorem past_is_end_of_trail (config : Config) (random : Random.Stream) (ops : List Operation) :
    let start := newWith config random
    let m := start.performAll ops
    let t := start.trail ops
    m.pastOpcodes <:+ t.opcodes ∧
    m.pastOpcodes.length = t.kept ∧
    t.kept ≤ 35 ∧
    m.history.length ≤ t.opcodes.length ∧
    ∀ since, .rewind ∉ since → (since = ops ∨ ∃ front rom, ops = front ++ .load rom :: since) →
      t.kept = min 35 t.opcodes.length := by
  intro start m t
  have here : t.EndsIn m := endsIn_trail config random ops
  refine ⟨?_, ?_, here.bounded, here.undoable, ?_⟩
  · rw [pastOpcodes, ← List.reverse_prefix, List.reverse_reverse]
    exact here.latest
  · rw [pastOpcodes, List.length_reverse, here.length]
  · intro since noRewind fresh
    have full : Trail.empty.Full := rfl
    rcases fresh with rfl | ⟨front, rom, rfl⟩
    · exact full.observe start noRewind
    · -- The load leaves an empty trail, from which the rest of the run goes on.
      have onward : t = observe Trail.note .empty ((start.performAll front).load rom).machine since :=
        observe_append Trail.note .empty start front (.load rom :: since)
      rw [onward]
      exact full.observe _ noRewind

end ChipEight.Machine
