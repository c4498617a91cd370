import VisualNovel.Command.Input
import VisualNovel.Session.Run
import VisualNovel.Session.Snapshot
import VisualNovel.Stage.Terminal

/-!
# Playing in the terminal

* `Play`           a session on the terminal, until it is over;
* `Play.wake`      what happens when time has passed;
* `Play.enter`     what happens when the player has typed a line;
* `Play.followed`  a play whose lines are typed at once, one after the other.
-/

namespace VisualNovel

structure Play where
  game : Game
  session : Session Terminal
  /-- the state is printed after every line of the player -/
  debug : Bool := false
  isOver : Bool := false

namespace Play

def greeting : String :=
  "=== objection ===\n\nControls:\n  Enter: start / continue / skip\n  1-9:   select choice\n" ++
    "  d:     debug snapshot\n  q:     quit\n\nPress Enter to start...\n"

/-- `audible` holds the locators whose sounds can be loaded -/
def begin (game : Game) (audible : List String) (debug : Bool) : Play where
  game := game
  session := .ofStage { audible := audible.contains, printed := greeting }
  debug := debug

def print (text : String) (p : Play) : Play := { p with session := p.session.onStage (·.print text) }

def printState (p : Play) : Play := p.print (p.session.snapshot p.game).line |>.print "\n"

def takeOutput (p : Play) : String × Play :=
  let (text, stage) := p.session.stage.takeOutput
  (text, { p with session := p.session.onStage fun _ => stage })

/-- timers that are due by `now` fire; the end of the script ends the play -/
def wake (fuel now : Nat) (p : Play) : Option Play := do
  let p := { p with session := ← p.session.runUntil p.game now fuel }
  return if p.session.isFinished p.game then { p.print "\n=== The End ===\n" with isOver := true } else p

def obey (input : PlayerInput) (p : Play) : Option Play :=
  match input with
  | .activate => (p.session.activate p.game).map fun session => { p with session }
  | .choose index => (p.session.choose p.game index).map fun session => { p with session }
  | .debug => some p.printState
  | .quit => some { p.print "Goodbye!\n" with isOver := true }
  | .unknown text => some (p.print s!"[Unknown input '{text}']\n")

def enter (fuel now : Nat) (line : String) (p : Play) : Option Play := do
  let p := { p with session := ← p.session.runUntil p.game now fuel }
  let p ← p.obey (.parse line)
  return if p.debug && !p.isOver then p.printState else p

/-- the clock stands still while the lines are typed -/
def followed (fuel : Nat) : List String → Play → Option Play
  | [], p => p.wake fuel 0
  | line :: lines, p => do
    let p ← p.wake fuel 0
    if p.isOver then return p
    let p ← p.enter fuel 0 line
    if p.isOver then return p
    followed fuel lines p

end Play

end VisualNovel
