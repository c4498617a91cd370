import VisualNovel.Session.Cue

/-!
# Running a session

The host of a session starts it, hands it the key presses of the player and their choices, and moves
its clock. Between two suspensions a session carries out one event after the other; a script can make
it do so for ever, and then an operation has no result.

* `Session.next?`       one turn of carrying out events: the session after it, unless it rests;
* `Session.advance`     events are carried out until the session rests. It rests within
                        `Session.turns` turns or never, since without a suspension the place alone
                        decides what comes next, and there are no more places than events;
* `Turn.settle`         after what a timer or the player has done, events are carried out if it goes on;
* `Session.start`, `Session.activate`, `Session.choose`, `Session.runUntil`   the host's operations.
-/

namespace VisualNovel

open Presentation Audio

namespace Session

variable {σ : Type} [Presentation σ] [Audio σ]

/-! ## Carrying out events -/

/-- the cues of a block, one after the other. Once the session is busy, the next cue that would suspend
it too is held back, with all that follow -/
def together (game : Game) : List Cue → Session σ → Session σ
  | [], s => s
  | cue :: cues, s =>
    if s.isBusy && cue.suspends then { s with deferred := s.deferred ++ cue :: cues }
    else together game cues (s.execute game cue).2

/-- where a turn has led -/
inductive Turn (σ : Type)
  | rests (s : Session σ)
  | goesOn (s : Session σ)

def Turn.ofFlow : Flow × Session σ → Turn σ
  | (.hold, s) => .rests s
  | (.goOn, s) => .goesOn s

/-- the first cue that was held back, or else the event at the present place -/
def turn (game : Game) (s : Session σ) : Turn σ :=
  if s.isBusy then .rests s
  else
    match s.deferred with
    | cue :: cues => .ofFlow ({ s with deferred := cues }.execute game cue)
    | [] =>
      match game.script.events[s.position]? with
      | none => .rests s
      | some (.single cue) => .ofFlow ({ s with position := s.position + 1 }.execute game cue)
      | some (.together cues) => .goesOn ({ s with position := s.position + 1 }.together game cues)

/-- `n` turns at most; nothing if the session still goes on after them -/
def advanceWithin (game : Game) : Nat → Session σ → Option (Session σ)
  | 0, _ => none
  | n + 1, s =>
    match s.turn game with
    | .rests s => some s
    | .goesOn s => advanceWithin game n s

/-- a session that does not rest within so many turns never rests -/
def turns (game : Game) (s : Session σ) : Nat := s.deferred.length + game.script.size + 1

def advance (game : Game) (s : Session σ) : Option (Session σ) :=
  if s.started then advanceWithin game (s.turns game) s else some s

/-- events are carried out after a turn that goes on -/
def Turn.settle (game : Game) : Turn σ → Option (Session σ)
  | .rests s => some s
  | .goesOn s => s.advance game

/-! ## Timers -/

def completeLine (game : Game) (completion : Completion) (s : Session σ) : Session σ :=
  let s := { s with typing := false }
  match completion with
  | .autoAdvance => (s.suspend .autoAdvance).schedule game.config.timing.autoAdvance .advance
  | .waitForInput => { s.resume with waitingForInput := true }

def typeTick (game : Game) (s : Session σ) : Session σ :=
  if s.reveal.isRevealing then
    match LineReveal.tick game s.reveal s.scene with
    | (some completion, reveal, scene) => { s with reveal, scene }.completeLine game completion
    | (none, reveal, scene) => { s with reveal, scene }.schedule game.config.timing.typing .typeTick
  else s

/-- the next picture of the sequence that is being shown, or its end -/
def nextFrame (game : Game) (s : Session σ) : Turn σ :=
  match s.flipbook with
  | none => .rests s
  | some { frames := frame :: frames, interval, keepLast } =>
    let s := { s with flipbook := some ⟨frames, interval, keepLast⟩ }
    let s := match game.assets.get? frame with
      | some locator => s.onStage (setBackground · (some locator))
      | none => s
    .rests (s.schedule interval .frame)
  | some { frames := [], keepLast, .. } =>
    let s := { s with flipbook := none }
    let s :=
      if keepLast then s
      else { s with scene := { s.scene with stage := setSpritesVisible s.scene.stage false, spritesHidden := true } }
    .goesOn s.resume

/-- seconds of the video, by its own clock or by the simulated one -/
def videoClock (s : Session σ) : Float :=
  match s.videoFailedAt with
  | some failed => (s.now - failed).toUInt64.toFloat / 1000
  | none => videoTime s.stage

def pollVideo (game : Game) (s : Session σ) : Turn σ :=
  match s.suspension with
  | some (.videoWait target) =>
    if s.videoClock ≥ target || videoEnded s.stage then .goesOn s.resume
    else .rests (s.schedule game.config.timing.videoPoll .videoPoll)
  | _ => .rests s

/-- a video that is still paused has failed -/
def checkVideo (s : Session σ) : Session σ :=
  if s.videoFailedAt.isNone && videoPaused s.stage then { s with videoFailedAt := some s.now } else s

/-- what a timer does before events go on -/
def fire (game : Game) (kind : TimerKind) (s : Session σ) : Turn σ :=
  match kind with
  | .advance => .goesOn s.resume
  | .typeTick => .rests (s.typeTick game)
  | .cardTick => .rests (s.stepCard game)
  | .frame => s.nextFrame game
  | .videoPoll => s.pollVideo game
  | .videoCheck => .rests s.checkVideo

/-! ## The host's operations -/

/-- pictures are loaded and the sound is switched on, once -/
def opened (game : Game) (s : Session σ) : Turn σ :=
  if s.started then .rests s
  else .goesOn ({ s with started := true }.onStage fun p => resumeAudio (preload p game.assets.images))

/-- goes on after a line or card, or shows the rest of a line at once -/
def pressed (game : Game) (s : Session σ) : Turn σ :=
  if s.isChoosing then .rests s
  else if s.waitingForInput then
    let s := if s.cardShown then { s.onStage (showCard · false) with cardShown := false } else s
    .goesOn ({ s with waitingForInput := false }.onStage (showContinue · false))
  else if s.typing && s.reveal.isRevealing then
    match LineReveal.skip game s.reveal s.scene with
    | (some completion, reveal, scene) => .rests ({ s with reveal, scene }.completeLine game completion)
    | (none, reveal, scene) => .rests { s with reveal, scene }
  else .rests s

/-- takes an option of the open menu, if there is such an option -/
def chosen (game : Game) (index : Nat) (s : Session σ) : Turn σ :=
  match s.suspension with
  | some (.choice options) =>
    match options[index]? with
    | some option =>
      let s := (s.onStage hideChoices).resume
      .goesOn (match option.target with | some target => s.jump game target | none => s)
    | none => .rests s
  | _ => .rests s

def start (game : Game) (s : Session σ) : Option (Session σ) := (s.opened game).settle game

/-- the player's key starts a session, too -/
def activate (game : Game) (s : Session σ) : Option (Session σ) :=
  if s.started then (s.pressed game).settle game else s.start game

def choose (game : Game) (index : Nat) (s : Session σ) : Option (Session σ) := (s.chosen game index).settle game

/-- fires every timer that is due by `limit`, in the order of their due times; `fuel` bounds the number
of timers that come due, since a session may schedule timers without end -/
def runUntil (game : Game) (limit : Nat) : Nat → Session σ → Option (Session σ)
  | 0, _ => none
  | fuel + 1, s =>
    match s.timers.popDue? limit with
    | none => some { s with timers := s.timers.setNow limit }
    | some (timer, timers) =>
      let s := { s with timers }
      if s.isLive timer then ((s.fire game timer.kind).settle game).bind (runUntil game limit fuel)
      else runUntil game limit fuel s

end Session

end VisualNovel
