/-!
# What a session drives

A session shows pictures and text on a stage and plays sounds on it. Nothing it does depends on what
the stage answers, but for the handles of sprites, the clock of the video, and whether a video or the
music has started.

* `Presentation`   layers, sprites, the text box, intro cards, video and menus;
* `Audio`          sounds and music.
-/

namespace VisualNovel

/-- names a sprite on a stage -/
structure Handle where
  id : Nat
deriving DecidableEq

/-- what fills the stage behind the characters -/
inductive Layer
  | background
  | video
deriving DecidableEq

inductive TextStyle
  | spoken
  | thought
deriving DecidableEq

/-- why a video has not started -/
inductive MediaError
  | unsupported
  | startFailed (locator reason : String)
deriving DecidableEq

def MediaError.message : MediaError → String
  | unsupported => "video playback is not supported by this surface"
  | startFailed locator reason => s!"failed to start {locator}: {reason}"

class Presentation (σ : Type) where
  preload : σ → List String → σ
  /-- no locator: black -/
  setBackground : σ → Option String → σ
  /-- no locator: no desk in front of the characters -/
  setDesk : σ → Option String → σ
  setLayer : σ → Layer → σ
  addSprite : σ → String → Handle × σ
  replaceSprite : σ → Handle → String → σ
  removeSprite : σ → Handle → σ
  clearSprites : σ → σ
  setSpritesVisible : σ → Bool → σ
  showTextbox : σ → Bool → σ
  setSpeaker : σ → Option String → σ
  /-- empties the text box and chooses how it looks -/
  clearText : σ → TextStyle → σ
  pushChar : σ → Char → σ
  setText : σ → String → σ
  showContinue : σ → Bool → σ
  /-- shows an empty intro card, or hides it -/
  showCard : σ → Bool → σ
  cardNewLine : σ → σ
  cardPushChar : σ → Char → σ
  playVideo : σ → String → Except MediaError Unit × σ
  stopVideo : σ → σ
  /-- seconds since the video started -/
  videoTime : σ → Float
  videoPaused : σ → Bool
  videoEnded : σ → Bool
  showChoices : σ → List String → σ
  hideChoices : σ → σ

class Audio (σ : Type) where
  /-- whether the sound is heard -/
  playSound : σ → (key locator : String) → (volume : Float32) → Bool × σ
  /-- whether the music is heard -/
  playMusic : σ → (key locator : String) → (volume : Float32) → Bool × σ
  stopMusic : σ → σ
  suspendAudio : σ → σ
  resumeAudio : σ → σ
  audioSuspended : σ → Bool

end VisualNovel
