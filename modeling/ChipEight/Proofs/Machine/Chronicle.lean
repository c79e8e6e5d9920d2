import Mathlib.Data.List.Forall2
import ChipEight.Proofs.Machine.Run
/-!
# Chronicles

A chronicle is kept of what the opcodes executed so far have done to some part of the state. A rewind
takes back what was written since the state that it restores, and so a chronicle is put by at each step
as the state is. `describes_chronicle` says that it suffices to look at single opcodes: if what is written
of each describes the state that it leads to, then a chronicle describes the machine after every run.
-/
namespace ChipEight.Machine

structure Chronicle (γ : Type) where
  /-- What is known of the state. -/
  now : γ
  /-- What was known of each state that the machine remembers, the latest first. -/
  saved : List γ

section Keeping

variable {γ : Type} (write : γ → State → Opcode → γ)

/-- Keeps a chronicle: an executed opcode is written down with the state that it meets. Steps, rewinds
and loads do to the chronicles saved what they do to the history. -/
def Chronicle.note (c : Chronicle γ) (m : Machine) : Operation → Chronicle γ
  | .load _ => { c with saved := [] }
  | .execute op =>
    match (m.execute op).result with
    | .ok () => { c with now := write c.now m.state op }
    | .error _ => c
  | .step =>
    match m.step.result with
    | .ok op =>
      ⟨write c.now m.advance.state op, save m.config.historyLimit c.now c.saved⟩
    | .error _ => c
  | .rewind =>
    match c.saved with
    | before :: older => ⟨before, older⟩
    | [] => c
  | _ => c

/-- The chronicle of a run that starts with nothing remembered, its frames taken apart. -/
def chronicle (start : γ) (m : Machine) (ops : List Operation) : Chronicle γ :=
  observe (Chronicle.note write) ⟨start, []⟩ m ops

/-- `R` relates what is written to the screen and the random bytes of a state, and does so again after
each opcode. -/
structure Tells (R : γ → State → Prop) : Prop where
  untouched {g : γ} {s t : State} (screen : t.screen = s.screen) (random : t.random = s.random)
    (here : R g s) : R g t
  written {g : γ} {s after : State} {strict : Bool} {op : Opcode}
    (carried : s.carryOut strict op = .ok after) (here : R g s) : R (write g s op) after

/-- The chronicle tells of the state and of all that is remembered. -/
structure Chronicle.Describes (R : γ → State → Prop) (c : Chronicle γ) (m : Machine) : Prop where
  now : R c.now m.state
  saved : List.Forall₂ R c.saved m.history

variable {write} {R : γ → State → Prop}

/-- Rows of the same length give up their last entries at the same time. -/
theorem forall₂_save {bound : Nat} {g : γ} {s : State} {saved : List γ} {history : List State}
    (first : R g s) (rest : List.Forall₂ R saved history) :
    List.Forall₂ R (save bound g saved) (save bound s history) := by
  unfold save push
  split
  · refine .cons first ?_
    rw [rest.length_eq, List.dropLast_eq_take, List.dropLast_eq_take, rest.length_eq]
    split
    · exact List.forall₂_take _ rest
    · exact rest
  · exact rest

theorem Chronicle.Describes.change (tells : Tells write R) {c : Chronicle γ} {m after : Machine}
    {op : Operation} (change : Change m op after) (here : c.Describes R m) :
    (c.note write m op).Describes R after := by
  have still {s : State} (screen : s.screen = m.state.screen) (random : s.random = m.state.random) :
      R c.now s := tells.untouched screen random here.now
  cases change with
  | load rom memory => exact ⟨still rfl rfl, .nil⟩
  | fetched _ => exact ⟨still rfl rfl, here.saved⟩
  | unfetched => exact here
  | executed carried result =>
    unfold note
    simp only [result]
    exact ⟨tells.written carried here.now, here.saved⟩
  | unexecuted result =>
    unfold note
    simp only [result]
    exact here
  | stepped fetched carried result =>
    unfold note
    simp only [result]
    -- What is put by describes the state before the program counter moved.
    exact ⟨tells.written carried (still rfl rfl), forall₂_save here.now here.saved⟩
  | unstepped result =>
    unfold note
    simp only [result]
    exact here
  | @rewound before older history =>
    -- As many chronicles are saved as states, so both have a latest one to give back.
    obtain ⟨now, saved⟩ := c
    obtain ⟨told, all⟩ := here
    rw [history] at all
    cases all with
    | cons first rest => exact ⟨first, rest⟩
  | unwound history =>
    obtain ⟨now, saved⟩ := c
    obtain ⟨told, all⟩ := here
    rw [history] at all
    cases all
    exact ⟨told, history ▸ .nil⟩
  | takeFrame => exact ⟨still rfl rfl, here.saved⟩
  | press k => exact ⟨still rfl rfl, here.saved⟩
  | release k => exact ⟨still rfl rfl, here.saved⟩
  | tickDelay => exact ⟨still rfl rfl, here.saved⟩
  | tickSound => exact ⟨still rfl rfl, here.saved⟩

theorem describes_chronicle (tells : Tells write R) {start : γ} {m : Machine}
    (told : R start m.state) (new : m.history = []) (ops : List Operation) :
    (m.chronicle write start ops).Describes R (m.performAll ops) :=
  observe_keeps (Chronicle.Describes.change tells) ⟨told, new ▸ .nil⟩ ops

end Keeping

end ChipEight.Machine
