import VisualNovel.Stage.Basic
import VisualNovel.Table

/-!
# Recording stages

A stage without a screen: it keeps what would be seen and heard, and writes down every call.

* `Screen`           the visible side, with its log of `Call`s;
* `SoundLog`         the audible side, with its log of `SoundCall`s;
* `RecordingStage`   both sides together.
-/

namespace VisualNovel

/-! ## The visible side -/

inductive Call
  | preload (count : Nat)
  | background (locator : Option String)
  | desk (locator : Option String)
  | layer (layer : Layer)
  | addSprite (handle : Handle) (locator : String)
  | replaceSprite (handle : Handle) (locator : String)
  | removeSprite (handle : Handle)
  | clearSprites
  | spritesVisible (visible : Bool)
  | textbox (visible : Bool)
  | speaker (name : Option String)
  | clearText (style : TextStyle)
  | pushChar (c : Char)
  | setText (text : String)
  | continueIndicator (visible : Bool)
  | card (visible : Bool)
  | cardNewLine
  | cardPushChar (c : Char)
  | playVideo (locator : String)
  | stopVideo
  | showChoices (labels : List String)
  | hideChoices
deriving DecidableEq

/-- what becomes of a video that is to be played -/
inductive VideoBehavior
  | plays
  /-- it starts, but stays paused -/
  | stalls
  /-- it does not start -/
  | fails
deriving DecidableEq

structure Screen where
  calls : Array Call := #[]
  background : Option String := none
  desk : Option String := none
  layer : Option Layer := none
  sprites : Table Nat String := .empty
  spritesVisible : Bool := true
  textbox : Bool := false
  speaker : Option String := none
  style : Option TextStyle := none
  text : String := ""
  continueVisible : Bool := false
  cardVisible : Bool := false
  cardLines : List String := []
  video : Option String := none
  videoBehavior : VideoBehavior := .plays
  videoTime : Float := 0
  videoEnded : Bool := false
  choices : List String := []
  lastHandle : Nat := 0

/-- puts a character at the end of the last line, or on a first line of its own -/
def pushOnLast (c : Char) : List String → List String
  | [] => [c.toString]
  | [line] => [line.push c]
  | line :: lines => line :: pushOnLast c lines

theorem pushOnLast_concat (c : Char) (lines : List String) (line : String) :
    pushOnLast c (lines ++ [line]) = lines ++ [line.push c] := by
  induction lines with
  | nil => rfl
  | cons l ls ih =>
    cases ls with
    | nil => rfl
    | cons l' ls => exact congrArg (l :: ·) ih

namespace Screen

def log (s : Screen) (c : Call) : Screen := { s with calls := s.calls.push c }

/-- the locators of the sprites, in the order of their handles -/
def spriteLocators (s : Screen) : List String := s.sprites.values

def failure : String := "recording surface configured to fail"

instance : Presentation Screen where
  preload s locators := s.log (.preload locators.length)
  setBackground s locator := { s with background := locator }.log (.background locator)
  setDesk s locator := { s with desk := locator }.log (.desk locator)
  setLayer s layer := { s with layer := some layer }.log (.layer layer)
  addSprite s locator :=
    let handle := s.lastHandle + 1
    (⟨handle⟩,
      { s with lastHandle := handle, sprites := s.sprites.insert handle locator }.log
        (.addSprite ⟨handle⟩ locator))
  replaceSprite s handle locator :=
    { s with sprites := s.sprites.insert handle.id locator }.log (.replaceSprite handle locator)
  removeSprite s handle := { s with sprites := s.sprites.erase handle.id }.log (.removeSprite handle)
  clearSprites s := { s with sprites := .empty }.log .clearSprites
  setSpritesVisible s visible := { s with spritesVisible := visible }.log (.spritesVisible visible)
  showTextbox s visible := { s with textbox := visible }.log (.textbox visible)
  setSpeaker s name := { s with speaker := name }.log (.speaker name)
  clearText s style := { s with text := "", style := some style }.log (.clearText style)
  pushChar s c := { s with text := s.text.push c }.log (.pushChar c)
  setText s text := { s with text := text }.log (.setText text)
  showContinue s visible := { s with continueVisible := visible }.log (.continueIndicator visible)
  showCard s visible :=
    { s with cardVisible := visible, cardLines := if visible then [] else s.cardLines }.log (.card visible)
  cardNewLine s := { s with cardLines := s.cardLines ++ [""] }.log .cardNewLine
  cardPushChar s c := { s with cardLines := pushOnLast c s.cardLines }.log (.cardPushChar c)
  playVideo s locator :=
    let s := { s with videoTime := 0, videoEnded := false }.log (.playVideo locator)
    if s.videoBehavior = .fails then (.error (.startFailed locator failure), { s with video := none })
    else (.ok (), { s with video := some locator })
  stopVideo s := { s with video := none }.log .stopVideo
  videoTime s := s.videoTime
  videoPaused s := s.video.isNone || s.videoBehavior = .stalls
  videoEnded s := s.videoEnded
  showChoices s labels := { s with choices := labels }.log (.showChoices labels)
  hideChoices s := { s with choices := [] }.log .hideChoices

end Screen

/-! ## The audible side -/

inductive SoundCall
  | sound (key : String) (volume : Float32)
  | music (key : String) (volume : Float32)
  | stopMusic
  | suspend
  | resume
deriving BEq

structure SoundLog where
  calls : Array SoundCall := #[]
  music : Option String := none
  suspended : Bool := false
  /-- keys whose data cannot be played -/
  failing : List String := []

namespace SoundLog

def log (s : SoundLog) (c : SoundCall) : SoundLog := { s with calls := s.calls.push c }

/-- the keys of the sounds that were heard, in order -/
def sounds (s : SoundLog) : List String :=
  s.calls.toList.filterMap fun | .sound key _ => some key | _ => none

def musicStarts (s : SoundLog) : Nat := s.calls.toList.countP fun | .music _ _ => true | _ => false

instance : Audio SoundLog where
  playSound s key _ volume :=
    if s.failing.contains key then (false, s) else (true, s.log (.sound key volume))
  playMusic s key _ volume :=
    if s.failing.contains key then (false, s)
    else (true, { s with music := some key }.log (.music key volume))
  stopMusic s := { s with music := none }.log .stopMusic
  suspendAudio s := { s with suspended := true }.log .suspend
  resumeAudio s := { s with suspended := false }.log .resume
  audioSuspended s := s.suspended

end SoundLog

/-! ## Both sides -/

structure RecordingStage where
  screen : Screen := {}
  sound : SoundLog := {}

namespace RecordingStage

open Presentation Audio

def onScreen (f : Screen → Screen) (s : RecordingStage) : RecordingStage := { s with screen := f s.screen }
def onSound (f : SoundLog → SoundLog) (s : RecordingStage) : RecordingStage := { s with sound := f s.sound }

instance : Presentation RecordingStage where
  preload s locators := s.onScreen (preload · locators)
  setBackground s locator := s.onScreen (setBackground · locator)
  setDesk s locator := s.onScreen (setDesk · locator)
  setLayer s layer := s.onScreen (setLayer · layer)
  addSprite s locator :=
    let (handle, screen) := addSprite s.screen locator
    (handle, { s with screen })
  replaceSprite s handle locator := s.onScreen (replaceSprite · handle locator)
  removeSprite s handle := s.onScreen (removeSprite · handle)
  clearSprites s := s.onScreen clearSprites
  setSpritesVisible s visible := s.onScreen (setSpritesVisible · visible)
  showTextbox s visible := s.onScreen (showTextbox · visible)
  setSpeaker s name := s.onScreen (setSpeaker · name)
  clearText s style := s.onScreen (clearText · style)
  pushChar s c := s.onScreen (pushChar · c)
  setText s text := s.onScreen (setText · text)
  showContinue s visible := s.onScreen (showContinue · visible)
  showCard s visible := s.onScreen (showCard · visible)
  cardNewLine s := s.onScreen cardNewLine
  cardPushChar s c := s.onScreen (cardPushChar · c)
  playVideo s locator :=
    let (started, screen) := playVideo s.screen locator
    (started, { s with screen })
  stopVideo s := s.onScreen stopVideo
  videoTime s := videoTime s.screen
  videoPaused s := videoPaused s.screen
  videoEnded s := videoEnded s.screen
  showChoices s labels := s.onScreen (showChoices · labels)
  hideChoices s := s.onScreen hideChoices

instance : Audio RecordingStage where
  playSound s key locator volume :=
    let (heard, sound) := playSound s.sound key locator volume
    (heard, { s with sound })
  playMusic s key locator volume :=
    let (heard, sound) := playMusic s.sound key locator volume
    (heard, { s with sound })
  stopMusic s := s.onSound stopMusic
  suspendAudio s := s.onSound suspendAudio
  resumeAudio s := s.onSound resumeAudio
  audioSuspended s := audioSuspended s.sound

end RecordingStage

end VisualNovel
