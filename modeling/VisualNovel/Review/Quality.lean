import VisualNovel.Game
import VisualNovel.Review.Config
import VisualNovel.Review.Issue
import VisualNovel.Timer.Duration

/-!
# Odd values and repetitions

* `waitIssues`     pauses one after the other that take too long in all;
* `timingIssues`   pauses and rates that cannot be used, and waits for a video before there is one;
* `musicIssues`    music that is already playing;
* `textIssues`     lines that are too long;
* `emptyIssues`    menus, sequences, cards and blocks without contents.
-/

namespace VisualNovel.Review

/-! ## Pauses -/

def overLimit (limit total : Float) (place : Nat) : List Issue :=
  if total > limit then [⟨.longWaits total limit, some place⟩] else []

/-- `total` seconds have been waited since the event at `since` -/
def waitsFrom (limit total : Float) (since : Nat) : List (Event × Nat) → List Issue
  | [] => overLimit limit total since
  | (.single (.wait seconds), place) :: events =>
    let since := if total == 0 then place else since
    let total := if seconds.isFinite && seconds > 0 then total + seconds else total
    waitsFrom limit total since events
  | _ :: events => overLimit limit total since ++ waitsFrom limit 0 since events

def waitIssues (script : Script) (limit : Float) : List Issue :=
  waitsFrom limit 0 0 script.events.toList.zipIdx

/-! ## Timing -/

/-- `started`: there has been a video -/
def timingFrom (started : Bool) : List (Nat × Event) → List Issue
  | [] => []
  | (place, e) :: events =>
    let found : List Finding :=
      match e with
      | .single (.wait seconds) => if !seconds.isFinite || seconds < 0 then [.invalidWait seconds] else []
      | .single (.sequence _ fps _) => if !fps.isFinite || fps ≤ 0 then [.invalidRate fps] else []
      | .single (.waitVideo _) => if started then [] else [.waitBeforeVideo]
      | _ => []
    let started := match e with | .single (.video _) => true | _ => started
    found.map (⟨·, some place⟩) ++ timingFrom started events

def timingIssues (script : Script) : List Issue := timingFrom false script.walk

/-! ## Music -/

/-- `current` is the music that plays -/
def musicFrom (current : Option String) : List (Nat × Event) → List Issue
  | [] => []
  | (place, .single (.music .play (some name))) :: events =>
    let key := musicKey name
    (if current == some key then [⟨.repeatedMusic key, some place⟩] else []) ++ musicFrom (some key) events
  | (_, .single (.music .stop _)) :: events => musicFrom none events
  | _ :: events => musicFrom current events

def musicIssues (script : Script) : List Issue := musicFrom none script.walk

/-! ## Contents -/

def longText? (limit : Nat) : Event → Option Finding
  | .single (.dialogue line) =>
    if limit < line.text.length then some (.longText line.text.length limit) else none
  | _ => none

def textIssues (script : Script) (limit : Nat) : List Issue :=
  script.walk.filterMap fun (place, e) => (longText? limit e).map (⟨·, some place⟩)

def empty? : Event → Option Finding
  | .single (.choice []) => some .emptyChoice
  | .single (.sequence [] _ _) => some .emptySequence
  | .single (.introCard []) => some .emptyCard
  | .together [] => some .emptyBlock
  | _ => none

def emptyIssues (script : Script) : List Issue :=
  script.walk.filterMap fun (place, e) => (empty? e).map (⟨·, some place⟩)

def qualityIssues (script : Script) (rules : QualityRules) : List Issue :=
  waitIssues script rules.maxWait ++ timingIssues script ++
    (if rules.warnMusic then musicIssues script else []) ++ textIssues script rules.maxText ++
    emptyIssues script

end VisualNovel.Review
