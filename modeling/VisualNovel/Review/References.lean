import VisualNovel.Review.Issue
import VisualNovel.Script.Basic

/-!
# References to labels

* `targetIssues`      jumps and options whose label is not defined;
* `placesByName`      where each label is defined;
* `duplicateIssues`   labels that are defined more than once, in the order of their names;
* `nestedIssues`      labels inside blocks.
-/

namespace VisualNovel.Review

def targetFindings (script : Script) : Event → List Finding
  | .single (.jump target) => if (script.find? target).isNone then [.undefinedJump target] else []
  | .single (.choice options) =>
    options.filterMap fun o =>
      match o.target with
      | some target => if (script.find? target).isNone then some (.undefinedChoice o.text target) else none
      | none => none
  | _ => []

def targetIssues (script : Script) : List Issue :=
  script.walk.flatMap fun (place, e) => (targetFindings script e).map (⟨·, some place⟩)

/-- adds the place to those of the label, if the event is one -/
def enterPlace (places : Table String (List Nat)) : Event × Nat → Table String (List Nat)
  | (.single (.label name), place) => places.insert name ((places.get? name).getD [] ++ [place])
  | _ => places

/-- the places of the events that define a label, under its name -/
def placesByName (events : List Event) : Table String (List Nat) :=
  events.zipIdx.foldl enterPlace .empty

def repetition? (name : String) (places : List Nat) : Option Issue :=
  match places.getLast? with
  | some last =>
    if 1 < places.length then some ⟨.repeatedLabel name places.length, some last⟩ else none
  | none => none

/-- a label of several counts at its last place -/
def duplicateIssues (script : Script) : List Issue :=
  (placesByName script.events.toList).entries.filterMap fun e => repetition? e.1 e.2

def nestedLabel? : Cue → Option Finding
  | .label name => some (.nestedLabel name)
  | _ => none

def nestedIssues (script : Script) : List Issue :=
  script.events.toList.zipIdx.flatMap fun (e, place) =>
    match e with
    | .together cues => (cues.filterMap nestedLabel?).map (⟨·, some place⟩)
    | .single _ => []

end VisualNovel.Review
