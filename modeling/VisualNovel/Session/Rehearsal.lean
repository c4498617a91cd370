import VisualNovel.Session.Run
import VisualNovel.Session.Snapshot
import VisualNovel.Stage.Recording

/-!
# Rehearsals

A rehearsal plays a game without a player: on a recording stage, where no video starts, it moves the
clock from one timer to the next, goes on after every line and always takes the same option.

* `Rehearsal.step`    one step of a rehearsal;
* `rehearse`          the report of a rehearsal, within a number of steps.
-/

namespace VisualNovel

open Json (Value)

structure RehearsalOptions where
  /-- the option taken of every menu -/
  choice : Nat := 0
  /-- so many steps at most -/
  maxSteps : Nat := 10000

structure Report where
  finished : Bool
  /-- nothing was pending, but the script had not come to its end -/
  stalled : Bool
  steps : Nat
  lines : Nat
  choices : Nat
  elapsed : Nat
  sounds : Nat
  musicStarts : Nat
  /-- at every line and every menu -/
  trace : List Snapshot
deriving DecidableEq

def Report.toValue (r : Report) : Value :=
  .object
    [("finished", .bool r.finished), ("stalled", .bool r.stalled), ("steps", .nat r.steps),
      ("lines", .nat r.lines), ("choices", .nat r.choices), ("elapsed_ms", .nat r.elapsed),
      ("sounds", .nat r.sounds), ("music_starts", .nat r.musicStarts),
      ("trace", .array (r.trace.map Snapshot.toValue))]

/-- a rehearsal under way -/
structure Rehearsal where
  session : Session RecordingStage
  stalled : Bool := false
  steps : Nat := 0
  lines : Nat := 0
  choices : Nat := 0
  trace : Array Snapshot := #[]

namespace Rehearsal

/-- a menu that is still open after the choice has no such option; then its first one is taken -/
def answer (game : Game) (choice : Nat) (s : Session RecordingStage) : Option (Session RecordingStage) := do
  let s ← s.choose game choice
  if s.isChoosing then s.choose game 0 else some s

/-- answers a menu, goes on after a line, or moves the clock; `fuel` bounds the timers fired at once -/
def step (game : Game) (choice fuel : Nat) (r : Rehearsal) : Option Rehearsal :=
  let snapshot := r.session.snapshot game
  let r := { r with steps := r.steps + 1 }
  if r.session.isChoosing then do
    let session ← answer game choice r.session
    return { r with session, choices := r.choices + 1, trace := r.trace.push snapshot }
  else if r.session.waitingForInput then do
    let session ← r.session.activate game
    return { r with session, lines := r.lines + 1, trace := r.trace.push snapshot }
  else
    match r.session.deadline? with
    | some deadline => (r.session.runUntil game deadline fuel).map fun session => { r with session }
    | none => some { r with stalled := true }

/-- steps until the session is finished or stalled, `n` at most -/
def run (game : Game) (choice fuel : Nat) : Nat → Rehearsal → Option Rehearsal
  | 0, r => some r
  | n + 1, r =>
    if r.stalled || r.session.isFinished game then some r
    else (r.step game choice fuel).bind (run game choice fuel n)

def report (game : Game) (r : Rehearsal) : Report where
  finished := r.session.isFinished game
  stalled := r.stalled
  steps := r.steps
  lines := r.lines
  choices := r.choices
  elapsed := r.session.now
  sounds := r.session.stage.sound.sounds.length
  musicStarts := r.session.stage.sound.musicStarts
  trace := r.trace.toList

end Rehearsal

/-- the stage of rehearsals: no video starts on it -/
def rehearsalStage : RecordingStage := { screen := { videoBehavior := .fails } }

/-- nothing if the game runs on for ever within one step -/
def rehearse (game : Game) (options : RehearsalOptions) (fuel : Nat) : Option Report := do
  let session ← (Session.ofStage rehearsalStage).start game
  let r ← Rehearsal.run game options.choice fuel options.maxSteps { session }
  return r.report game

end VisualNovel
