import VisualNovel.Session.Basic
import VisualNovel.Timer.Duration

/-!
# Carrying out a cue

A name without an asset is passed over: it changes nothing on stage and never holds playback up.

* `Session.execute`   what a cue does, and whether playback holds after it;
* `Session.jump`      playback goes on at a label, if there is one.
-/

namespace VisualNovel

open Presentation Audio

/-- whether playback goes on after a cue -/
inductive Flow
  | goOn
  | hold
deriving DecidableEq

namespace Session

variable {σ : Type} [Presentation σ] [Audio σ]

/-! ## Pictures and characters -/

def showBackground (game : Game) (name : String) (s : Session σ) : Session σ :=
  if isBlack name then s.onStage fun p => setDesk (setBackground p none) none
  else
    match game.assets.get? name with
    | some locator => s.onStage (setBackground · (some locator))
    | none => s

def clearCast (s : Session σ) : Session σ := { s with scene := s.scene.clear }

def showView (game : Game) (name : String) (s : Session σ) : Session σ :=
  match game.config.views.get? name with
  | some preset =>
    (s.clearCast.showBackground game preset.background).onStage
      (setDesk · (preset.desk.bind game.assets.get?))
  | none => s

def moveCharacter (game : Game) (name : Option String) (action : CastAction) (s : Session σ) : Session σ :=
  match action, name with
  | .hide, some name => { s with scene := s.scene.leave game.config.talkSuffix name }
  | .hide, none => s.clearCast
  | _, none => s
  | action, some name =>
    match game.assets.get? name with
    | some locator =>
      let s := if action = .show then s.clearCast else s
      { s with scene := s.scene.enter name locator }
    | none => s

/-! ## Sounds -/

/-- a sound that is not heard is passed over -/
def playSound (game : Game) (name : String) (volume : Float32) (s : Session σ) : Session σ :=
  let key := game.soundKey name
  match game.assets.get? key with
  | some locator => s.onStage fun p => (Audio.playSound p key locator volume).2
  | none => s

def stopMusic (s : Session σ) : Session σ :=
  let s := if s.musicActive then s.onStage Audio.stopMusic else s
  { s with musicActive := false, currentMusic := none }

/-- music that is already heard is not started again -/
def playMusic (game : Game) (name : String) (s : Session σ) : Session σ :=
  let key := musicKey name
  if s.musicActive && s.currentMusic == some key then
    if audioSuspended s.stage then s.onStage resumeAudio else s
  else
    let s := s.stopMusic
    match game.assets.get? key with
    | some locator =>
      let (heard, stage) := Audio.playMusic s.scene.stage key locator game.config.audio.musicVolume
      { s with scene := { s.scene with stage }, currentMusic := some key, musicActive := heard }
    | none => s

def music (game : Game) (action : MusicAction) (name : Option String) (s : Session σ) : Session σ :=
  match action, name with
  | .play, some name => s.playMusic game name
  | .play, none => s
  | .pause, _ => s.onStage suspendAudio
  | .resume, _ => s.onStage resumeAudio
  | .stop, _ => s.stopMusic

/-! ## Lines, cards and sequences -/

def showLine (game : Game) (line : Line) (s : Session σ) : Session σ :=
  let s := s.onStage (showTextbox · true)
  let s := s.onStage (setLayer · (if s.introMode then .video else .background))
  let s := { s with waitingForInput := false, typing := true }.suspend .typing
  let (reveal, scene) := LineReveal.begin line s.scene
  { s with reveal, scene }.schedule game.config.timing.typing .typeTick

/-- the next step of the card that is being revealed -/
def stepCard (game : Game) (s : Session σ) : Session σ :=
  match s.card with
  | none => s
  | some card =>
    let newLine (needed : Bool) (s : Session σ) : Session σ := if needed then s.onStage cardNewLine else s
    match card.next with
    | (.char needed c, card) =>
      let s := (newLine needed { s with card := some card }).onStage (cardPushChar · c)
      (s.playSound game game.config.audio.introBlip game.config.audio.soundVolume).schedule
        game.config.timing.introChar .cardTick
    | (.lineEnd needed, card) =>
      (newLine needed { s with card := some card }).schedule game.config.timing.introLine .cardTick
    | (.finished, _) => { { s with card := none, typing := false }.resume with waitingForInput := true }

def beginCard (game : Game) (lines : List String) (s : Session σ) : Session σ :=
  let s := { s with typing := true, introMode := true, waitingForInput := false }.suspend .introCard
  let s := s.onStage fun p => showCard (showTextbox p false) true
  { s with cardShown := true, card := some (.ofLines lines) }.stepCard game

def beginSequence (frames : List String) (fps : Float) (keepLast : Bool) (s : Session σ) : Session σ :=
  let interval := frameInterval fps
  ({ s.clearCast with flipbook := some ⟨frames, interval, keepLast⟩ }.suspend .sequence).schedule interval .frame

/-! ## Videos -/

def playVideo (game : Game) (name : String) (s : Session σ) : Session σ :=
  let s := { s with videoGeneration := s.videoGeneration + 1, videoFailedAt := none }
  match game.assets.get? name with
  | none => { s with videoFailedAt := some s.now }
  | some locator =>
    let (started, stage) := Presentation.playVideo (setLayer s.scene.stage .video) locator
    let s := { s with scene := { s.scene with stage } }
    match started with
    | .ok () =>
      { s with
        timers := s.timers.schedule game.config.timing.videoStall .videoCheck (.video s.videoGeneration) }
    | .error _ => { s with videoFailedAt := some s.now }

/-- without any video so far, its time is simulated from now on -/
def waitForVideo (game : Game) (seconds : Float) (s : Session σ) : Session σ :=
  let s := if s.videoGeneration = 0 then { s with videoFailedAt := some s.now } else s
  (s.suspend (.videoWait seconds)).schedule game.config.timing.videoPoll .videoPoll

/-! ## Control -/

def jump (game : Game) (target : String) (s : Session σ) : Session σ :=
  match game.script.find? target with
  | some place => { s with position := place, epoch := s.epoch + 1 }
  | none => s

/-- an empty menu is passed over -/
def openChoice (options : List ChoiceOption) (s : Session σ) : Flow × Session σ :=
  match options with
  | [] => (.goOn, s)
  | options =>
    (.hold, (s.onStage (showChoices · (options.map ChoiceOption.text))).suspend (.choice options))

def execute (game : Game) (cue : Cue) (s : Session σ) : Flow × Session σ :=
  match cue with
  | .background name => (.goOn, s.showBackground game name)
  | .view name => (.goOn, s.showView game name)
  | .music action name => (.goOn, s.music game action name)
  | .sound name => (.goOn, s.playSound game name game.config.audio.soundVolume)
  | .character name action => (.goOn, s.moveCharacter game name action)
  | .dialogue line => (.hold, s.showLine game line)
  | .wait seconds => (.hold, (s.suspend .waiting).schedule (milliseconds seconds) .advance)
  | .video name => (.goOn, s.playVideo game name)
  | .waitVideo seconds => (.hold, s.waitForVideo game seconds)
  | .introStart => (.goOn, { s with introMode := true })
  | .introEnd =>
    (.goOn, { s with introMode := false }.onStage fun p => setLayer (stopVideo p) .background)
  | .introCard lines => (.hold, s.beginCard game lines)
  | .sequence frames fps keepLast => (.hold, s.beginSequence frames fps keepLast)
  | .label _ => (.goOn, s)
  | .jump target => (.goOn, s.jump game target)
  | .choice options => s.openChoice options
  | .unknown => (.goOn, s)

end Session

end VisualNovel
