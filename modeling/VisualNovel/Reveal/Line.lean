import VisualNovel.Cast.Scene
import VisualNovel.Game

/-!
# Revealing a line

A line is revealed character by character. Each character of a spoken line, but for blanks, makes a
blip, and the sprites of the speaker talk until the line is done.

* `LineReveal`          nothing, a line of which so many characters are shown, or a line that is done;
* `LineReveal.begin`    empties the text box for a new line;
* `LineReveal.tick`     shows one more character, or completes the line;
* `LineReveal.skip`     shows all of the line and completes it.
-/

namespace VisualNovel

open Presentation Audio

/-- how playback goes on after a line -/
inductive Completion
  | autoAdvance
  | waitForInput
deriving DecidableEq

inductive LineReveal
  | idle
  | revealing (line : Line) (shown : Nat)
  | done (line : Line)
deriving DecidableEq

/-- the blip of a speaker: their own if there is such an asset, otherwise the default -/
def blipFor (assets : AssetTable) (audio : AudioSettings) (speaker : Option String) : String :=
  match speaker.bind audio.speakerBlips.get? with
  | some key => if assets.contains key then key else audio.defaultBlip
  | none => audio.defaultBlip

namespace LineReveal

def isRevealing : LineReveal → Bool
  | revealing _ _ => true
  | _ => false

@[simp] theorem isRevealing_idle : idle.isRevealing = false := rfl
@[simp] theorem isRevealing_revealing (line : Line) (n : Nat) : (revealing line n).isRevealing = true := rfl
@[simp] theorem isRevealing_done (line : Line) : (done line).isRevealing = false := rfl

/-- the number of characters shown -/
def shown : LineReveal → Nat
  | idle => 0
  | revealing _ n => n
  | done line => line.text.length

variable {σ : Type} [Presentation σ] [Audio σ]

def begin (line : Line) (s : Scene σ) : LineReveal × Scene σ :=
  let stage := showContinue s.stage false
  let stage := clearText stage (if line.thought then .thought else .spoken)
  let stage := setSpeaker stage line.speaker
  (revealing line 0, { s with stage })

def playBlip (game : Game) (speaker : Option String) (s : Scene σ) : Scene σ :=
  let key := blipFor game.assets game.config.audio speaker
  match game.assets.get? key with
  | some locator => { s with stage := (playSound s.stage key locator game.config.audio.blipVolume).2 }
  | none => s

/-- the sprites of the speaker of a line, if it has one, start or stop talking -/
def talk (game : Game) (line : Line) (talking : Bool) (s : Scene σ) : Scene σ :=
  match line.speaker with
  | some speaker => (s.animate game.assets game.config speaker talking).2
  | none => s

/-- what one character of a line does besides being shown -/
def voice (game : Game) (line : Line) (c : Char) (s : Scene σ) : Scene σ :=
  if c ≠ ' ' && !line.thought then talk game line true (playBlip game line.speaker s) else s

def finish (game : Game) (line : Line) (s : Scene σ) : Completion × Scene σ :=
  let s := talk game line false s
  if line.autoAdvance then (.autoAdvance, s)
  else (.waitForInput, { s with stage := showContinue s.stage true })

def complete (game : Game) (line : Line) (s : Scene σ) : Option Completion × LineReveal × Scene σ :=
  let (completion, s) := finish game line s
  (some completion, done line, s)

def tick (game : Game) (r : LineReveal) (s : Scene σ) : Option Completion × LineReveal × Scene σ :=
  match r with
  | revealing line n =>
    match line.text.toList[n]? with
    | none => complete game line s
    | some c => (none, revealing line (n + 1), voice game line c (s.onStage (pushChar · c)))
  | r => (none, r, s)

def skip (game : Game) (r : LineReveal) (s : Scene σ) : Option Completion × LineReveal × Scene σ :=
  match r with
  | revealing line _ => complete game line (s.onStage (setText · line.text))
  | r => (none, r, s)

end LineReveal

end VisualNovel
