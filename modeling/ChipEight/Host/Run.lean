import ChipEight.Host.Event
import ChipEight.Host.Options
import ChipEight.Host.RomFile
import ChipEight.Machine.Frame
import ChipEight.Report.Listing
import ChipEight.Report.RegisterDump
/-!
# Runs without a display

A run loads a ROM, plays a number of frames with the scripted keys, each held for exactly its frame, and
ends with a picture of the screen and the register dump (the specification, §10.4). `run` takes the file
that was found and gives the whole report; nothing here touches the world.
-/
namespace ChipEight.Host

/-- What ends a run before its time. -/
inductive Failure where
  | unopened (file : String) (e : SystemError)
  | unreadable (file : String) (e : SystemError)
  | stopped (frame : Nat) (fault : Fault)
  deriving DecidableEq, Repr

namespace Failure

def message : Failure → String
  | unopened file _ => "unable to open ROM " ++ file
  | unreadable file _ => "unable to read ROM " ++ file
  | stopped frame _ => "machine stopped in frame " ++ toString frame

def cause : Failure → String
  | unopened _ e | unreadable _ e => e.message
  | stopped _ fault => fault.message

/-- The failure as it is reported, line by line. -/
def lines (f : Failure) : List String :=
  ["Error: " ++ f.message, "", "Caused by:", "    " ++ f.cause]

end Failure

/-- All that a run gives; the log has the earliest message first. -/
structure RunReport where
  failure : Option Failure
  output : String
  log : List Event

namespace RunReport

def exitCode (r : RunReport) : Nat := if r.failure.isSome then 1 else 0

/-- The report of the failure, if there is one. -/
def failureLines (r : RunReport) : List String := (r.failure.map Failure.lines).getD []

/-- The log as a reader at a level sees it. -/
def shownLog (r : RunReport) (asked : LogLevel) : List String :=
  (r.log.filter fun e => asked.shownAt e.level).map Event.line

end RunReport

/-- A run between two frames. -/
structure Session where
  machine : Machine
  /-- The keys that went down for the last frame. -/
  held : List Key
  /-- The sound timer was running at the end of the last frame. -/
  beeping : Bool
  /-- What was logged, the latest message first. -/
  log : List Event

namespace Session

/-- The keys that a script presses in a frame, in the order of the script. -/
def keysFor (presses : List KeyPress) (frame : Nat) : List Key :=
  (presses.filter (·.frame == frame)).map (·.key)

/-- Releases the keys of the last frame and presses those of this one. -/
def handleKeys (s : Session) (presses : List KeyPress) (frame : Nat) : Session :=
  let keys := keysFor presses frame
  { s with
    machine := keys.foldl Machine.press (s.held.foldl Machine.release s.machine)
    held := keys
    log := (keys.map (Event.pressing frame)).reverse ++ s.log }

/-- What is logged after a frame: a beep when it starts and when it stops, a change of the picture,
and a machine that waits for a key. -/
def frameEvents (frame : Nat) (wasBeeping : Bool) (report : Machine.FrameReport)
    (updated waiting : Bool) : List Event :=
  (if report.soundActive && !wasBeeping then [.beep frame] else [])
    ++ (if report.beepStopped then [.beepStopped frame] else [])
    ++ (if updated then [.displayUpdated frame] else [])
    ++ (if waiting then [.waitingForKey frame] else [])

/-- Plays one frame with the keys as they are, up to a fault. -/
def playFrame (s : Session) (frame : Nat) : Session × Option Fault :=
  let played := s.machine.runFrame
  let log := (played.log.map Event.machine).reverse ++ s.log
  match played.result with
  | .error fault => ({ s with machine := played.machine, log := log }, some fault)
  | .ok report =>
    let taken := played.machine.takeFrame
    let events := frameEvents frame s.beeping report taken.result.isSome
      taken.machine.isWaitingForKey
    ({ s with
        machine := taken.machine
        beeping := report.soundActive
        log := events.reverse ++ log }, none)

/-- Plays `count` frames from `frame` on, up to a fault, which is given with its frame. -/
def playFrames (presses : List KeyPress) (s : Session) (frame : Nat) :
    Nat → Session × Option (Nat × Fault)
  | 0 => (s, none)
  | count + 1 =>
    match (s.handleKeys presses frame).playFrame frame with
    | (s, some fault) => (s, some (frame, fault))
    | (s, none) => playFrames presses s (frame + 1) count

/-- The session that the first frame of a run starts from. -/
def opening (o : Options) (rom : Rom) (chance : Random.Stream) : Session :=
  let loaded := (Machine.new o.config chance).load rom
  ⟨loaded.machine, [], false,
    .romLoaded loaded.result o.rom :: (loaded.log.map Event.machine).reverse⟩

/-- The report on a session that has been played, to the end or up to a fault. -/
def closing : Session × Option (Nat × Fault) → RunReport
  | (s, some (frame, fault)) =>
    ⟨some (.stopped frame fault), Report.registerDump s.machine, s.log.reverse⟩
  | (s, none) =>
    ⟨none, s.machine.state.screen.blockText ++ Report.registerDump s.machine, s.log.reverse⟩

end Session

/-- Runs a ROM that has been read. -/
def runRom (o : Options) (rom : Rom) (chance : Random.Stream) : RunReport :=
  let start := Session.opening o rom chance
  if o.disassemble then
    let loaded := (Machine.new o.config chance).load rom
    ⟨none, Report.listing loaded.machine loaded.result, start.log.reverse⟩
  else Session.closing (Session.playFrames o.presses start 0 o.frames)

/-- Runs what was found where the options point. `chance` is the stream drawn for a run without a seed;
the one of seed 0 stands in where none was drawn. -/
def run (o : Options) (file : RomFile) (chance : Random.Stream := .ofSeed 0) : RunReport :=
  match file with
  | .unopened e => ⟨some (.unopened o.rom e), "", []⟩
  | .unreadable e => ⟨some (.unreadable o.rom e), "", []⟩
  | .contents rom => runRom o rom chance

end ChipEight.Host
