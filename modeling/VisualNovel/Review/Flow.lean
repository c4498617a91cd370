import VisualNovel.Review.Issue
import VisualNovel.Script.Basic

/-!
# The flow of a script

* `successors`          the places where playback can go on after an event;
* `explore`             the places that playback can come to, found step by step;
* `unreachableIssues`   events that it cannot come to;
* `loopIssues`          jumps back with no menu in between.
-/

namespace VisualNovel.Review

/-! ## Reachable places -/

/-- the last jump of a block that has a place to go to -/
def blockTarget? (script : Script) (cues : List Cue) : Option Nat :=
  cues.reverse.findSome? fun | .jump target => script.find? target | _ => none

/-- a label that is not defined leads on to the next event -/
def successors (script : Script) (place : Nat) : Event → List Nat
  | .single (.jump target) => [(script.find? target).getD (place + 1)]
  | .together cues => [(blockTarget? script cues).getD (place + 1)]
  | .single (.choice (o :: options)) =>
    let targets := (o :: options).filterMap ChoiceOption.target
    targets.map (fun target => (script.find? target).getD (place + 1)) ++
      (if (o :: options).any (·.target.isNone) then [place + 1] else [])
  | _ => [place + 1]

/-- adds a place of the script that has not been seen to what has been seen and to what is to be
looked at -/
def visit (size : Nat) (state : List Nat × List Nat) (place : Nat) : List Nat × List Nat :=
  let (seen, queue) := state
  if place < size && !seen.contains place then (place :: seen, queue ++ [place]) else state

/-- looks at one place of the queue after the other; each is queued once, so that as many turns as there
are events suffice -/
def explore (script : Script) : Nat → List Nat → List Nat → List Nat
  | 0, seen, _ => seen
  | _ + 1, seen, [] => seen
  | n + 1, seen, place :: queue =>
    match script.events[place]? with
    | none => explore script n seen queue
    | some e =>
      let (seen, queue) := (successors script place e).foldl (visit script.size) (seen, queue)
      explore script n seen queue

def reachable (script : Script) : List Nat :=
  if script.isEmpty then [] else explore script script.size [0] [0]

/-- labels are only marks -/
def isMark : Event → Bool
  | .single (.label _) => true
  | _ => false

def unreachableIssues (script : Script) : List Issue :=
  let reached := reachable script
  script.events.toList.zipIdx.filterMap fun (e, place) =>
    if reached.contains place || isMark e then none else some ⟨.unreachable e.kind, some place⟩

/-! ## Loops -/

def isChoice : Event → Bool
  | .single (.choice _) => true
  | _ => false

/-- the events from one place to another, both included -/
def between (script : Script) (first last : Nat) : List Event :=
  (script.events.toList.drop first).take (last + 1 - first)

def loop? (script : Script) (place : Nat) : Event → Option Finding
  | .single (.jump target) =>
    match script.find? target with
    | some back =>
      if back ≤ place && !(between script back place).any isChoice then some (.endlessLoop target back)
      else none
    | none => none
  | _ => none

def loopIssues (script : Script) : List Issue :=
  script.events.toList.zipIdx.filterMap fun (e, place) => (loop? script place e).map (⟨·, some place⟩)

end VisualNovel.Review
