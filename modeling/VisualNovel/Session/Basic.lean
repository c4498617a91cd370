import VisualNovel.Reveal.Card
import VisualNovel.Reveal.Line
import VisualNovel.Timer.Queue

/-!
# Sessions

A session is one playback of a game. It rests while it is suspended or waits for the player; timers and
the player make it go on. Every suspension, and every end of one, starts a new epoch, and a timer of an
older epoch no longer acts, so that nothing goes on twice.

* `Suspension`   why a session does not go on by itself;
* `Session`      the state of a playback;
* `Session.isBusy`, `Session.isChoosing`, `Session.isFinished`   what can happen next.
-/

namespace VisualNovel

inductive Suspension
  /-- a line is being revealed -/
  | typing
  /-- a line is done, and the next event follows by itself -/
  | autoAdvance
  | waiting
  | videoWait (target : Float)
  | introCard
  | sequence
  | choice (options : List ChoiceOption)

/-- a sequence that is being shown -/
structure Flipbook where
  /-- the pictures that are still to come -/
  frames : List String
  interval : Nat
  keepLast : Bool

structure Session (σ : Type) where
  scene : Scene σ
  /-- the place of the next event -/
  position : Nat := 0
  /-- a line or a card is being revealed -/
  typing : Bool := false
  /-- a line or a card is done and waits for the player -/
  waitingForInput : Bool := false
  /-- lines are shown over the video -/
  introMode : Bool := false
  currentMusic : Option String := none
  /-- the current music is heard -/
  musicActive : Bool := false
  suspension : Option Suspension := none
  epoch : Nat := 0
  /-- the number of videos so far -/
  videoGeneration : Nat := 0
  /-- when the last video failed; its time is simulated from then on -/
  videoFailedAt : Option Nat := none
  started : Bool := false
  timers : Timers := {}
  reveal : LineReveal := .idle
  card : Option CardReveal := none
  cardShown : Bool := false
  flipbook : Option Flipbook := none
  /-- cues of a block that are held back behind a suspension -/
  deferred : List Cue := []

namespace Session

variable {σ : Type}

/-- a session that has not been started, on an empty stage -/
def ofStage (stage : σ) : Session σ := { scene := { stage } }

def stage (s : Session σ) : σ := s.scene.stage

def onStage (f : σ → σ) (s : Session σ) : Session σ := { s with scene := { s.scene with stage := f s.scene.stage } }

def now (s : Session σ) : Nat := s.timers.now
def deadline? (s : Session σ) : Option Nat := s.timers.deadline?

/-- no further event may run -/
def isBusy (s : Session σ) : Bool := s.typing || s.suspension.isSome

def isChoosing (s : Session σ) : Bool :=
  match s.suspension with
  | some (.choice _) => true
  | _ => false

/-- the script has come to its end and nothing is waiting -/
def isFinished (game : Game) (s : Session σ) : Bool :=
  s.started && game.script.size ≤ s.position && !s.isBusy && !s.waitingForInput && s.deferred.isEmpty

/-! ## Epochs -/

def suspend (why : Suspension) (s : Session σ) : Session σ :=
  { s with epoch := s.epoch + 1, suspension := some why }

def resume (s : Session σ) : Session σ := { s with epoch := s.epoch + 1, suspension := none }

/-- a timer of the present epoch -/
def schedule (delay : Nat) (kind : TimerKind) (s : Session σ) : Session σ :=
  { s with timers := s.timers.schedule delay kind (.epoch s.epoch) }

/-- a timer acts only while its guard holds -/
def isLive (s : Session σ) (t : Timer) : Bool :=
  match t.guard with
  | .epoch n => n == s.epoch
  | .video generation => generation == s.videoGeneration

end Session

end VisualNovel
