/-!
# Cues and events

A cue is one instruction to the stage: a picture, a sound, a line, a pause, a jump. An event of a
script is a single cue, or a block of cues that are carried out together; blocks do not nest.

* `Cue`          the instructions, and `unknown` for one that is not understood;
* `Event`        one cue or a block of them;
* `Event.cues`   the cues of an event, in order.
-/

namespace VisualNovel

inductive MusicAction
  | play
  | pause
  | resume
  | stop
deriving DecidableEq

/-- what happens to the characters on stage -/
inductive CastAction
  /-- the named one replaces all others -/
  | show
  | add
  /-- the named one leaves, or all if none is named -/
  | hide
deriving DecidableEq

/-- something said, or thought, in the text box -/
structure Line where
  text : String
  speaker : Option String
  thought : Bool
  autoAdvance : Bool
deriving DecidableEq

/-- an entry of a menu; without a target playback goes on after the menu -/
structure ChoiceOption where
  text : String
  target : Option String
deriving DecidableEq

inductive Cue
  | background (name : String)
  | view (name : String)
  | music (action : MusicAction) (name : Option String)
  | sound (name : String)
  | character (name : Option String) (action : CastAction)
  | dialogue (line : Line)
  | wait (seconds : Float)
  | video (name : String)
  | waitVideo (seconds : Float)
  | introStart
  | introEnd
  | introCard (lines : List String)
  | sequence (frames : List String) (fps : Float) (keepLast : Bool)
  | label (name : String)
  | jump (target : String)
  | choice (options : List ChoiceOption)
  | unknown
deriving BEq

/-- one cue, or cues carried out together -/
inductive Event
  | single (cue : Cue)
  | together (cues : List Cue)
deriving BEq

namespace Cue

/-- the word for a cue in documents and reports -/
def kind : Cue → String
  | background _ => "bg"
  | view _ => "view"
  | music _ _ => "music"
  | sound _ => "sfx"
  | character _ _ => "character"
  | dialogue _ => "dialogue"
  | wait _ => "wait"
  | video _ => "video"
  | waitVideo _ => "wait_video"
  | introStart => "intro_start"
  | introEnd => "intro_end"
  | introCard _ => "intro_card"
  | sequence _ _ _ => "sequence"
  | label _ => "label"
  | jump _ => "jump"
  | choice _ => "choice"
  | unknown => "unknown"

/-- the cues that hold playback until a timer or the player releases it -/
def suspends : Cue → Bool
  | dialogue _ | wait _ | waitVideo _ | introCard _ | sequence _ _ _ | choice _ => true
  | _ => false

end Cue

namespace Event

def kind : Event → String
  | single cue => cue.kind
  | together _ => "simultaneous"

def cues : Event → List Cue
  | single cue => [cue]
  | together cues => cues

@[simp] theorem cues_single (c : Cue) : (single c).cues = [c] := rfl
@[simp] theorem cues_together (cs : List Cue) : (together cs).cues = cs := rfl

end Event

end VisualNovel
