import VisualNovel.Decimal.Fixed

/-!
# Issues of a script

A review finds facts about a script; an issue is such a finding with its place. Playback copes with
every one of them.

* `Finding`      what a review can find, with its level, its category and its text;
* `Issue.line`   an issue in one line of text;
* `Verdict`      the issues of a review and their counts.
-/

namespace VisualNovel

inductive Level
  /-- playback will not do what the script says -/
  | error
  | warning
  | info
deriving DecidableEq

def Level.name : Level → String
  | error => "error"
  | warning => "warning"
  | info => "info"

inductive Category
  | references
  | assets
  | quality
  | flow
deriving DecidableEq

def Category.name : Category → String
  | references => "references"
  | assets => "assets"
  | quality => "quality"
  | flow => "flow"

/-- what an asset is needed for -/
inductive AssetUse
  | background
  | viewBackground
  | viewDesk
  | music
  | sound
  | character
  | talkingSprite
  | video
  | frame
deriving DecidableEq

def AssetUse.name : AssetUse → String
  | background => "Background"
  | viewBackground => "View background"
  | viewDesk => "View desk"
  | music => "Music"
  | sound => "Sound"
  | character => "Character"
  | talkingSprite => "Talking sprite"
  | video => "Video"
  | frame => "Sequence frame"

inductive Finding
  | undefinedJump (target : String)
  | undefinedChoice (option target : String)
  | repeatedLabel (name : String) (count : Nat)
  | nestedLabel (name : String)
  | missingAsset (use : AssetUse) (name : String)
  | unknownView (name : String)
  | missingBlip (name : String)
  | longWaits (total limit : Float)
  | invalidWait (seconds : Float)
  | invalidRate (fps : Float)
  | waitBeforeVideo
  | repeatedMusic (key : String)
  | longText (length limit : Nat)
  | emptyChoice
  | emptySequence
  | emptyCard
  | emptyBlock
  | unreachable (kind : String)
  | endlessLoop (target : String) (place : Nat)

namespace Finding

def level : Finding → Level
  | undefinedJump _ | undefinedChoice _ _ => .error
  | missingBlip _ | repeatedMusic _ | longText _ _ => .info
  | _ => .warning

def category : Finding → Category
  | undefinedJump _ | undefinedChoice _ _ | repeatedLabel _ _ | nestedLabel _ => .references
  | missingAsset _ _ | unknownView _ | missingBlip _ => .assets
  | unreachable _ | endlessLoop _ _ => .flow
  | _ => .quality

def message : Finding → String
  | undefinedJump target => s!"Jump target '{target}' is not defined"
  | undefinedChoice option target => s!"Choice '{option}' targets undefined label '{target}'"
  | repeatedLabel name count => s!"Label '{name}' is defined {count} times; jumps use the last one"
  | nestedLabel name => s!"Label '{name}' inside a simultaneous block cannot be jumped to"
  | missingAsset use name => s!"{use.name} '{name}' is not in the asset table"
  | unknownView name => s!"View '{name}' has no preset"
  | missingBlip name => s!"Default blip '{name}' is missing; dialogue will be silent"
  | longWaits total limit =>
    s!"Consecutive waits total {Decimal.fixed 1 total}s (threshold: {Decimal.fixed 1 limit}s)"
  | invalidWait seconds => s!"Wait of {Decimal.plain seconds}s is treated as no wait"
  | invalidRate fps => s!"Sequence fps {Decimal.plain fps} is invalid; 1 fps is used"
  | waitBeforeVideo => "wait_video before any video; the wait runs on a simulated clock"
  | repeatedMusic key => s!"Music '{key}' is already playing"
  | longText length limit => s!"Text length {length} exceeds recommended maximum of {limit}"
  | emptyChoice => "Choice without options is skipped"
  | emptySequence => "Sequence without frames"
  | emptyCard => "Intro card without lines"
  | emptyBlock => "Empty simultaneous block"
  | unreachable kind => s!"Unreachable {kind} event"
  | endlessLoop target place =>
    s!"Potential infinite loop: jump back to '{target}' at {place} with no choice in between"

end Finding

structure Issue where
  finding : Finding
  /-- the place of the event, for a cue of a block that of the block -/
  position : Option Nat

namespace Issue

def level (i : Issue) : Level := i.finding.level
def category (i : Issue) : Category := i.finding.category
def message (i : Issue) : String := i.finding.message

def line (i : Issue) : String :=
  let place := match i.position with | some p => s!" #{p}" | none => ""
  s!"{i.level.name}[{i.category.name}]{place}: {i.message}"

end Issue

structure Verdict where
  issues : List Issue

namespace Verdict

def count (v : Verdict) (level : Level) : Nat := v.issues.countP (·.level = level)
def hasErrors (v : Verdict) : Bool := v.issues.any (·.level = .error)
def isClean (v : Verdict) : Bool := v.issues.isEmpty
def ofCategory (v : Verdict) (c : Category) : List Issue := v.issues.filter (·.category = c)

end Verdict

end VisualNovel
