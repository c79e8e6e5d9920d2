import ChipEight.Host.Run
import ChipEight.Proofs.Instruction.Reach
import ChipEight.Proofs.Keypad
import ChipEight.Proofs.Machine.Run
/-!
# Scripted keys

The keypad during a run from the command line. Instructions and timers leave the keypad alone, so while a
frame is played its keys are those that the session holds, and these are the script's keys for that frame
(`keys_held_for_their_frame`). Frames that are not played are of no account in a script.
-/
namespace ChipEight

namespace Machine

/-- Within a frame the keypad stays as it is. -/
theorem keypad_of_frame {m : Machine} {front : List Operation} (inside : front <+: m.parts .runFrame) :
    (m.performAll front).state.keypad = m.state.keypad := by
  have frame : m.primitives [.runFrame] = m.parts .runFrame := List.append_nil _
  refine performAll_keeps_of_mem (P := fun reached => reached.state.keypad = m.state.keypad)
    (fun reached op mem same => ?_) rfl
  obtain ⟨noFrame, origin⟩ := mem_primitives (frame ▸ inside.subset mem)
  have change := change_of_perform reached noFrame
  -- A frame is made of steps and ticks, and neither presses or releases a key.
  rw [List.mem_singleton, or_iff_right noFrame] at origin
  rw [← same]
  generalize (reached.perform op).machine = after at change
  rcases origin with rfl | rfl | rfl
  · cases change with
    | stepped fetched carried result =>
      have still := (Instruction.carryOut_reach carried).keypad
      exact still
    | unstepped result => rfl
  · cases change
    rfl
  · cases change
    rfl

theorem keypad_runFrame (m : Machine) : m.runFrame.machine.state.keypad = m.state.keypad := by
  have played : m.performAll (m.parts .runFrame) = m.runFrame.machine :=
    performAll_parts m .runFrame
  rw [← played, keypad_of_frame (List.prefix_refl _)]

theorem keypad_presses (m : Machine) (keys : List Key) :
    (keys.foldl press m).state.keypad = keys.foldl Keypad.press m.state.keypad :=
  (List.foldl_hom (fun m : Machine => m.state.keypad) fun _ _ => rfl).symm

theorem keypad_releases (m : Machine) (keys : List Key) :
    (keys.foldl release m).state.keypad = keys.foldl Keypad.release m.state.keypad :=
  (List.foldl_hom (fun m : Machine => m.state.keypad) fun _ _ => rfl).symm

end Machine

namespace Host

namespace Session

/-- The keys that are down are those that the session holds. -/
def KeysHeld (s : Session) : Prop := s.machine.state.keypad.Holds s.held

theorem KeysHeld.handleKeys {s : Session} (here : s.KeysHeld) (presses : List KeyPress)
    (frame : Nat) : (s.handleKeys presses frame).KeysHeld := by
  unfold KeysHeld Session.handleKeys
  rw [Machine.keypad_presses, Machine.keypad_releases]
  exact here.exchange (keysFor presses frame)

theorem KeysHeld.playFrame {s : Session} (here : s.KeysHeld) (frame : Nat) :
    (s.playFrame frame).1.KeysHeld := by
  unfold KeysHeld at here
  rw [← Machine.keypad_runFrame] at here
  cases played : s.machine.runFrame.result with
  | error fault =>
    simp only [Session.playFrame, played]
    exact here
  | ok report =>
    simp only [Session.playFrame, played, KeysHeld, Machine.takeFrame_machine]
    exact here

theorem KeysHeld.playFrames {s : Session} (here : s.KeysHeld) (presses : List KeyPress)
    (frame count : Nat) : (s.playFrames presses frame count).1.KeysHeld := by
  induction count generalizing s frame with
  | zero => exact here
  | succ count ih =>
    have after := (here.handleKeys presses frame).playFrame frame
    unfold Session.playFrames
    cases played : (s.handleKeys presses frame).playFrame frame with
    | mk t stopped =>
      rw [played] at after
      cases stopped with
      | none => exact ih after (frame + 1)
      | some fault => exact after

/-- Where a number of frames ends without a fault, playing more of them goes on. -/
theorem playFrames_add {presses : List KeyPress} {s t : Session} {frame count : Nat}
    (reached : playFrames presses s frame count = (t, none)) (more : Nat) :
    playFrames presses s frame (count + more) = playFrames presses t (frame + count) more := by
  induction count generalizing s frame with
  | zero =>
    obtain ⟨rfl, -⟩ := Prod.mk.inj reached
    rw [Nat.zero_add, Nat.add_zero]
  | succ count ih =>
    have ahead : frame + (count + 1) = frame + 1 + count := by omega
    rw [Session.playFrames] at reached
    rw [Nat.add_right_comm, Session.playFrames, ahead]
    cases played : (s.handleKeys presses frame).playFrame frame with
    | mk one stopped =>
      rw [played] at reached
      cases stopped with
      | none => exact ih reached
      | some fault => cases reached

theorem handleKeys_congr {s : Session} {presses presses' : List KeyPress} {frame : Nat}
    (same : keysFor presses' frame = keysFor presses frame) :
    s.handleKeys presses' frame = s.handleKeys presses frame := by
  unfold Session.handleKeys
  rw [same]

/-- Scripts with the same keys for the frames played are played alike. -/
theorem playFrames_congr {presses presses' : List KeyPress} (s : Session) (frame count : Nat)
    (same : ∀ f, f < frame + count → keysFor presses' f = keysFor presses f) :
    playFrames presses' s frame count = playFrames presses s frame count := by
  induction count generalizing s frame with
  | zero => rfl
  | succ count ih =>
    have here : s.handleKeys presses' frame = s.handleKeys presses frame :=
      handleKeys_congr (same frame (by omega))
    unfold Session.playFrames
    rw [here]
    cases (s.handleKeys presses frame).playFrame frame with
    | mk t stopped =>
      cases stopped with
      | none => exact ih t (frame + 1) fun f before => same f (by omega)
      | some fault => rfl

theorem keysHeld_opening (o : Options) (rom : Rom) (chance : Random.Stream) :
    (opening o rom chance).KeysHeld := by
  have pad : (opening o rom chance).machine.state.keypad = .released := by
    change ((Machine.new o.config chance).load rom).machine.state.keypad = .released
    rw [Machine.load_machine]
    rfl
  unfold KeysHeld
  rw [pad]
  exact Keypad.holds_released

end Session

/-- A run that is no listing plays its frames from the opening session. -/
theorem run_of_frames {o : Options} (playing : o.disassemble = false) (rom : Rom)
    (chance : Random.Stream) : run o (.contents rom) chance =
      Session.closing (Session.playFrames o.presses (Session.opening o rom chance) 0 o.frames) := by
  rw [run, runRom, playing, if_neg Bool.false_ne_true]

/-- If the frames before a frame of a run end without a fault, the run goes on with that frame, and
throughout it the keys down are those that the script presses in it, and the one that went down last is
the last of them in the script. So runs with the same options and scripts that agree on every frame below
the number of frames give the same report. -/
theorem keys_held_for_their_frame (o : Options) (chance : Random.Stream) :
    (∀ rom, ∀ f < o.frames, ∀ t,
      Session.playFrames o.presses (Session.opening o rom chance) 0 f = (t, none) →
      Session.playFrames o.presses (Session.opening o rom chance) 0 o.frames =
        Session.playFrames o.presses t f (o.frames - f) ∧
      (o.disassemble = false → run o (.contents rom) chance =
        Session.closing (Session.playFrames o.presses t f (o.frames - f))) ∧
      let ready := t.handleKeys o.presses f
      ∀ front, front <+: ready.machine.parts .runFrame →
        let pad := (ready.machine.performAll front).state.keypad
        (∀ k, pad.isDown k = true ↔ ∃ p ∈ o.presses, p.frame = f ∧ p.key = k) ∧
        pad.current = ((o.presses.filter (·.frame == f)).getLast?).map (·.key)) ∧
    (∀ presses, (∀ f < o.frames,
        presses.filter (·.frame == f) = o.presses.filter (·.frame == f)) →
      ∀ file, run { o with presses := presses } file chance = run o file chance) := by
  constructor
  · intro rom f below t reached
    have onward : Session.playFrames o.presses (Session.opening o rom chance) 0 o.frames =
        Session.playFrames o.presses t f (o.frames - f) := by
      have more := Session.playFrames_add reached (o.frames - f)
      rwa [Nat.add_sub_cancel' (Nat.le_of_lt below), Nat.zero_add] at more
    refine ⟨onward, fun playing => (run_of_frames playing rom chance).trans (by rw [onward]), ?_⟩
    intro ready front inside pad
    have held : t.KeysHeld := by
      have played := (Session.keysHeld_opening o rom chance).playFrames o.presses 0 f
      rw [reached] at played
      exact played
    have holds : pad.Holds (Session.keysFor o.presses f) := by
      have still : pad = ready.machine.state.keypad := Machine.keypad_of_frame inside
      rw [still]
      exact held.handleKeys o.presses f
    constructor
    · intro k
      rw [holds.down]
      simp [Session.keysFor, and_assoc]
    · rw [holds.current, Session.keysFor, List.getLast?_map]
  · intro presses same file
    have keys : ∀ f, f < 0 + o.frames →
        Session.keysFor presses f = Session.keysFor o.presses f := by
      intro f below
      rw [Nat.zero_add] at below
      rw [Session.keysFor, same f below]
      rfl
    cases file with
    | unopened e => rfl
    | unreadable e => rfl
    | contents rom =>
      have played : Session.playFrames presses (Session.opening o rom chance) 0 o.frames =
          Session.playFrames o.presses (Session.opening o rom chance) 0 o.frames :=
        Session.playFrames_congr _ 0 o.frames keys
      have opened : Session.opening { o with presses := presses } rom chance =
          Session.opening o rom chance := rfl
      simp only [run, runRom, opened, played]
      rfl

end Host

end ChipEight
